import Cpm.Base.TypeErrors

/-! The elements as a decoder leaves them, and the entries of arrays, from `utils/json.c`. -/
namespace Cpm

open Lib Lib.Decode

/-- The values of the elements, cleared from the first one on that could not be decoded. -/
def decodeElems (casts : CastOps) (root : Json) :
    List NeuJsonElem → List (Option NeuJsonValue) × Option DecodeError
  | [] => ([], none)
  | elem :: rest =>
    match decodeObject casts root elem with
    | .error e => (none :: rest.map fun _ => none, some e)
    | .ok value =>
      let further := decodeElems casts root rest
      (value :: further.1, further.2)

def jsonArrayGet : Json → Int → Option Json
  | .array items, index => if 0 ≤ index then items[index.toNat]? else none
  | _, _ => none

def neuJsonDecodeArrayByJson (casts : CastOps) (json : Json) (name : String) (index : Int)
    (elems : List NeuJsonElem) : List (Option NeuJsonValue) × Option DecodeError :=
  match (jsonObjectGet (some json) name).bind fun object => jsonArrayGet object index with
  | none => (elems.map fun _ => none, some .failed)
  | some child => decodeElems casts child elems

def neuJsonDecodeArraySizeByJson (json : Json) (name : String) : Int :=
  match jsonObjectGet (some json) name with
  | some (.array items) => (items.length : Int).bmod (2 ^ 32)
  | _ => -1

section
variable {casts : CastOps} {root : Json} {elems : List NeuJsonElem}

/-- `strdup` of what is no text is one of NULL. -/
theorem decodeObject_str (casts : CastOps) (root : Json) (name : String) :
    decodeObject casts root (required name .str) =
      match jsonObjectGet (some root) name with
      | none => .error .failed
      | some (.string text) => .ok (some (.str text))
      | some _ => .error .crashed := by
  rw [decodeObject, required_name, elemJson_named]
  cases jsonObjectGet (some root) name with
  | none => rfl
  | some ob => cases ob <;> rfl

theorem decodeObject_str_ok {casts : CastOps} {root : Json} {name : String}
    {value : Option NeuJsonValue} : decodeObject casts root (required name .str) = .ok value ↔
      ∃ text, jsonObjectGet (some root) name = some (.string text) ∧ value = some (.str text) := by
  rw [decodeObject_str]
  constructor
  · intro ok
    split at ok
    · cases ok
    · next text present =>
      cases ok
      exact ⟨text, present, rfl⟩
    · cases ok
  · rintro ⟨text, present, rfl⟩
    rw [present]

theorem decodeObject_there (casts : CastOps) (root : Json) (name : String) :
    decodeObject casts root (required name .object) =
      match jsonObjectGet (some root) name with
      | none => .error .failed
      | some ob => .ok (some (.object ob)) := by
  rw [decodeObject, required_name, elemJson_named]
  cases jsonObjectGet (some root) name <;> rfl

theorem decodeElems_by_json (casts : CastOps) (root : Json) (elems : List NeuJsonElem) :
    neuJsonDecodeByJson casts (some root) elems =
      match (decodeElems casts root elems).2 with
      | none => .ok (decodeElems casts root elems).1
      | some e => .error e := by
  rw [neuJsonDecodeByJson]
  induction elems with
  | nil => rfl
  | cons elem rest ih =>
    rw [List.mapM_cons, ih, decodeElems]
    cases decodeObject casts root elem with
    | error e => rfl
    | ok value =>
      cases decodeElems casts root rest with
      | mk values ended => cases ended <;> rfl

end

end Cpm
