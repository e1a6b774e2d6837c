import Cpm.Base.Jansson
import Cpm.Lib.Decode

/-! What `decode_object` makes of each kind of JSON. Only missing elements and values without a type
are refused; the kinds are not compared. -/
namespace Cpm

open Lib Lib.Decode

/-- The kinds that an element of this type is for. Whoever asks for an object takes arrays too. -/
def NeuJsonType.takes : NeuJsonType → Json → Bool
  | .int, .integer _ | .bit, .integer _ => true
  | .str, .string _ => true
  | .float, .integer _ | .float, .real _ | .double, .integer _ | .double, .real _ => true
  | .bool, .true | .bool, .false => true
  | .bytes, .array _ => true
  | .object, .object _ | .object, .array _ => true
  | .undefine, .string _ | .undefine, .real _ | .undefine, .true | .undefine, .false
  | .undefine, .integer _ | .undefine, .array _ => true
  | _, _ => false

def Meets (root : Json) (elem : NeuJsonElem) : Prop :=
  match elemJson root elem.name with
  | none => elem.optional = true
  | some ob => elem.type.takes ob = true

/-- A text is asked for and something else is there, first of all the elements. -/
def StrdupsNull (casts : CastOps) (root : Json) (elems : List NeuJsonElem) : Prop :=
  ∃ front elem rest, elems = front ++ elem :: rest ∧
    (∀ other ∈ front, ∃ value, decodeObject casts root other = .ok value) ∧
    elem.type = .str ∧ ∃ ob, elemJson root elem.name = some ob ∧ jsonStringValue (some ob) = none

/-- 0 only where all elements are as asked for, -1 otherwise, and no NULL is passed on. -/
def RejectsTypeErrors (casts : CastOps) (root : Json) (elems : List NeuJsonElem) : Prop :=
  (∀ values, neuJsonDecodeByJson casts (some root) elems = .ok values →
    ∀ elem ∈ elems, Meets root elem) ∧
  ((∃ elem ∈ elems, ¬ Meets root elem) →
    neuJsonDecodeByJson casts (some root) elems = .error .failed) ∧
  ¬ StrdupsNull casts root elems

/- Which elements stop the decoder. -/

/-- An object or null has no type that a value could take. -/
def typeless : Json → Bool
  | .object _ | .null => true
  | _ => false

def Refused (root : Json) (elem : NeuJsonElem) : Prop :=
  match elemJson root elem.name with
  | none => elem.optional = false
  | some ob => elem.type = .undefine ∧ typeless ob = true

/-- Its bytes do not fit behind the length that is stored. -/
def Overlong (ob : Json) : Prop :=
  ∃ items, ob = .array items ∧ 255 < items.length ∧ items.length % 256 ≠ 0

/-- The element makes the decoder read or write where nothing is. -/
def Faulty (root : Json) (elem : NeuJsonElem) : Prop :=
  ∃ ob, elemJson root elem.name = some ob ∧
    (elem.type = .str ∧ jsonStringValue (some ob) = none ∨
      (elem.type = .bytes ∨ elem.type = .undefine) ∧ Overlong ob)

/-- The first element that stops the decoder is one that it refuses. -/
def RefusedFirst (root : Json) (elems : List NeuJsonElem) : Prop :=
  ∃ front elem rest, elems = front ++ elem :: rest ∧
    (∀ other ∈ front, ¬ Faulty root other ∧ ¬ Refused root other) ∧ Refused root elem

section
variable {casts : CastOps} {root ob : Json} {elem : NeuJsonElem} {elems : List NeuJsonElem}

theorem decodeBytes_cases (items : List Json) :
    (∃ values, decodeBytes items = .ok (.bytes values)) ∧ ¬ Overlong (.array items) ∨
      decodeBytes items = .error .crashed ∧ Overlong (.array items) := by
  unfold decodeBytes
  have long : Overlong (.array items) ↔ 255 < items.length ∧ items.length % 256 ≠ 0 := by
    constructor
    · rintro ⟨_, same, long⟩
      cases same
      exact long
    · exact fun long => ⟨items, rfl, long⟩
  rw [long]
  by_cases empty : items.length % 256 = 0
  · exact .inl ⟨⟨[], if_pos empty⟩, fun long => long.2 empty⟩
  · by_cases short : items.length % 256 < items.length
    · refine .inr ⟨by simp [empty, short], by omega, empty⟩
    · refine .inl ⟨⟨_, by simp only [if_neg empty, if_neg short]; rfl⟩, fun long => short ?_⟩
      exact Nat.lt_of_lt_of_le (Nat.mod_lt _ (by decide)) long.1

/-- An array that is decoded without a type in mind gives bytes. -/
theorem decodeAs_array_ok {casts : CastOps} {items : List Json} {value : NeuJsonValue}
    (ok : decodeAs casts (.array items) (resolved .undefine (.array items)) = .ok value) :
    ∃ values, value = .bytes values := by
  have bytes : decodeBytes items = .ok value := ok
  obtain ⟨⟨values, decoded⟩, _⟩ | ⟨crashed, _⟩ := decodeBytes_cases items
  · cases decoded.symm.trans bytes
    exact ⟨values, rfl⟩
  · cases crashed.symm.trans bytes

theorem decodeAs_bytes (casts : CastOps) (ob : Json) :
    (∃ values, decodeAs casts ob .bytes = .ok values) ∧ ¬ Overlong ob ∨
    decodeAs casts ob .bytes = .error .crashed ∧ Overlong ob := by
  cases ob
  case array items =>
    obtain ⟨⟨values, decoded⟩, short⟩ | crashed := decodeBytes_cases items
    · exact .inl ⟨⟨_, decoded⟩, short⟩
    · exact .inr crashed
  all_goals exact .inl ⟨⟨_, rfl⟩, fun ⟨_, same, _⟩ => by cases same⟩

inductive Ends (casts : CastOps) (root : Json) (elem : NeuJsonElem) : Prop
  | decoded (value : Option NeuJsonValue) (ran : decodeObject casts root elem = .ok value)
      (sound : ¬ Faulty root elem) (kept : ¬ Refused root elem)
  | refused (ran : decodeObject casts root elem = .error .failed) (refuses : Refused root elem)
  | faulty (ran : decodeObject casts root elem = .error .crashed) (faults : Faulty root elem)

theorem ends_absent (absent : elemJson root elem.name = none) : Ends casts root elem := by
  have sound : ¬ Faulty root elem := fun ⟨_, present, _⟩ => by cases absent.symm.trans present
  cases optional : elem.optional with
  | true =>
    refine .decoded none ?_ sound ?_
    · simp [decodeObject, absent, optional]
    · simp [Refused, absent, optional]
  | false =>
    refine .refused ?_ ?_
    · simp [decodeObject, absent, optional]
    · simp [Refused, absent, optional]

theorem ends_present (present : elemJson root elem.name = some ob)
    (ends : (∃ value, decodeAs casts ob (resolved elem.type ob) = .ok value) ∧ ¬ Faulty root elem ∧
        ¬ Refused root elem ∨
      decodeAs casts ob (resolved elem.type ob) = .error .failed ∧ Refused root elem ∨
      decodeAs casts ob (resolved elem.type ob) = .error .crashed ∧ Faulty root elem) :
    Ends casts root elem := by
  have ran : decodeObject casts root elem = (decodeAs casts ob (resolved elem.type ob)).map some := by
    rw [decodeObject, present]
  obtain ⟨⟨value, decoded⟩, sound, kept⟩ | ⟨failed, refuses⟩ | ⟨crashed, faults⟩ := ends
  · exact .decoded (some value) (by rw [ran, decoded]; rfl) sound kept
  · exact .refused (by rw [ran, failed]; rfl) refuses
  · exact .faulty (by rw [ran, crashed]; rfl) faults

theorem ends (casts : CastOps) (root : Json) (elem : NeuJsonElem) : Ends casts root elem := by
  cases present : elemJson root elem.name with
  | none => exact ends_absent present
  | some ob =>
    apply ends_present present
    have refuses : Refused root elem ↔ elem.type = .undefine ∧ typeless ob = true := by
      rw [Refused, present]
    have faults : Faulty root elem ↔ elem.type = .str ∧ jsonStringValue (some ob) = none ∨
        (elem.type = .bytes ∨ elem.type = .undefine) ∧ Overlong ob := by
      simp [Faulty, present]
    rw [refuses, faults]
    cases is : elem.type with
    | str =>
      cases text : jsonStringValue (some ob) with
      | some text' => exact .inl ⟨⟨_, by rw [resolved_typed (by decide), decodeAs, text]⟩, by simp⟩
      | none => exact .inr (.inr ⟨by rw [resolved_typed (by decide), decodeAs, text], by simp⟩)
    | bytes =>
      obtain ⟨decoded, short⟩ | ⟨crashed, long⟩ := decodeAs_bytes casts ob
      · exact .inl ⟨decoded, by simp [short]⟩
      · exact .inr (.inr ⟨crashed, by simp [long]⟩)
    | undefine =>
      cases ob with
      | array items =>
        obtain ⟨decoded, short⟩ | ⟨crashed, long⟩ := decodeAs_bytes casts (.array items)
        · exact .inl ⟨decoded, by simp [short, typeless]⟩
        · exact .inr (.inr ⟨crashed, by simp [long]⟩)
      | object members => exact .inr (.inl ⟨rfl, rfl, rfl⟩)
      | null => exact .inr (.inl ⟨rfl, rfl, rfl⟩)
      | _ => exact .inl ⟨⟨_, rfl⟩, by simp [Overlong], by simp [typeless]⟩
    | _ => exact .inl ⟨by cases ob <;> exact ⟨_, rfl⟩, by simp, by simp⟩

theorem refused_sound (refuses : Refused root elem) : ¬ Faulty root elem := by
  rintro ⟨ob, present, faults⟩
  rw [Refused, present] at refuses
  obtain ⟨untyped, typeless⟩ := refuses
  obtain ⟨text, _⟩ | ⟨_, items, rfl, _⟩ := faults
  · cases untyped.symm.trans text
  · cases typeless

theorem decodeObject_ok_iff :
    (∃ value, decodeObject casts root elem = .ok value) ↔ ¬ Faulty root elem ∧ ¬ Refused root elem := by
  cases ends casts root elem with
  | decoded value ran sound kept => exact iff_of_true ⟨value, ran⟩ ⟨sound, kept⟩
  | refused ran refuses =>
    refine iff_of_false (fun ⟨_, ok⟩ => ?_) fun both => both.2 refuses
    cases ran.symm.trans ok
  | faulty ran faults =>
    refine iff_of_false (fun ⟨_, ok⟩ => ?_) fun both => both.1 faults
    cases ran.symm.trans ok

theorem decodeObject_failed_iff :
    decodeObject casts root elem = .error .failed ↔ Refused root elem := by
  cases ends casts root elem with
  | decoded value ran sound kept =>
    refine iff_of_false (fun failed => ?_) kept
    cases ran.symm.trans failed
  | refused ran refuses => exact iff_of_true ran refuses
  | faulty ran faults =>
    refine iff_of_false (fun failed => ?_) fun refuses => refused_sound refuses faults
    cases ran.symm.trans failed

theorem decodeByJson_failed_iff :
    neuJsonDecodeByJson casts (some root) elems = .error .failed ↔ RefusedFirst root elems := by
  have sound (front : List NeuJsonElem) :
      (∀ other ∈ front, ∃ value, decodeObject casts root other = .ok value) ↔
        ∀ other ∈ front, ¬ Faulty root other ∧ ¬ Refused root other :=
    forall₂_congr fun _ _ => decodeObject_ok_iff
  rw [neuJsonDecodeByJson, mapM_error_iff, RefusedFirst]
  simp only [sound, decodeObject_failed_iff]

theorem decodeObject_crashed_iff :
    decodeObject casts root elem = .error .crashed ↔ Faulty root elem := by
  cases ends casts root elem with
  | decoded value ran sound kept =>
    refine iff_of_false (fun crashed => ?_) sound
    cases ran.symm.trans crashed
  | refused ran refuses =>
    refine iff_of_false (fun crashed => ?_) (refused_sound refuses)
    cases ran.symm.trans crashed
  | faulty ran faults => exact iff_of_true ran faults

/-- The NULL of `json_string_value` is read. -/
theorem strdupsNull_crashes (strdups : StrdupsNull casts root elems) :
    neuJsonDecodeByJson casts (some root) elems = .error .crashed := by
  obtain ⟨front, elem, rest, split, before, text, ob, present, null⟩ := strdups
  have crashed : decodeObject casts root elem = .error .crashed :=
    decodeObject_crashed_iff.2 ⟨ob, present, .inl ⟨text, null⟩⟩
  exact mapM_error_iff.2 ⟨front, elem, rest, split, before, crashed⟩

theorem meets_string (meets : Meets root elem) (text : elem.type = .str)
    (present : elemJson root elem.name = some ob) : jsonStringValue (some ob) ≠ none := by
  rw [Meets, present, text] at meets
  cases ob with
  | string found => exact Option.some_ne_none found
  | _ => cases meets

theorem type_errors (casts : CastOps) (root : Json) (elems : List NeuJsonElem) :
    RejectsTypeErrors casts root elems ↔
      (∀ elem ∈ elems, Meets root elem) ∨ RefusedFirst root elems := by
  constructor
  · rintro ⟨_, rejects, _⟩
    by_cases all : ∀ elem ∈ elems, Meets root elem
    · exact .inl all
    · refine .inr (decodeByJson_failed_iff.1 (rejects ?_))
      simpa using all
  · rintro (all | refused)
    · refine ⟨fun _ _ => all, fun ⟨elem, inside, unmet⟩ => absurd (all elem inside) unmet, ?_⟩
      rintro ⟨front, elem, rest, rfl, _, text, ob, present, null⟩
      have meets := all elem (List.mem_append_right _ List.mem_cons_self)
      exact meets_string meets text present null
    · have failed : neuJsonDecodeByJson casts (some root) elems = .error .failed :=
        decodeByJson_failed_iff.2 refused
      refine ⟨fun values ran => ?_, fun _ => failed, fun strdups => ?_⟩
      · cases failed.symm.trans ran
      · cases failed.symm.trans (strdupsNull_crashes strdups)

theorem type_errors_node :
    neuJsonDecodeByJson noCasts (some (.object [("node", .integer 5)])) [required "node" .str] =
      .error .crashed ∧
    neuJsonDecodeByJson noCasts (some (.object [("interval", .string (.lit "5"))]))
      [required "interval" .int] = .ok [some (.int 0)] ∧
    ¬ RejectsTypeErrors noCasts (.object [("node", .integer 5)]) [required "node" .str] := by
  have crashed : neuJsonDecodeByJson noCasts (some (.object [("node", .integer 5)]))
      [required "node" .str] = .error .crashed := rfl
  refine ⟨crashed, rfl, fun rejects => ?_⟩
  have failed := rejects.2.1 ⟨_, List.mem_singleton_self _, Bool.false_ne_true⟩
  cases crashed.symm.trans failed

end

end Cpm
