import Cpm.Base.Elements
import Cpm.Rest.TagJson

/-! What a tag in JSON has to be, and which tags the decoder takes, refuses, or stumbles over. -/
namespace Cpm

open Lib Lib.Decode

structure TagOf (casts : CastOps) (item : Json) (tag : NeuJsonTag) : Prop where
  type : jsonObjectGet (some item) "type" = some (.integer tag.type)
  name : jsonObjectGet (some item) "name" = some (.string tag.name)
  attributes : jsonObjectGet (some item) "attribute" = some (.integer tag.attributes)
  address : jsonObjectGet (some item) "address" = some (.string tag.address)
  decimal : (jsonObjectGet (some item) "decimal" = none ∧ tag.decimal = 0) ∨
    (∃ n, jsonObjectGet (some item) "decimal" = some (.integer n) ∧ tag.decimal = casts.ofInt n) ∨
    ∃ bits, jsonObjectGet (some item) "decimal" = some (.real bits) ∧ tag.decimal = bits.toNat
  precision : (jsonObjectGet (some item) "precision" = none ∧ tag.precision = 0) ∨
    jsonObjectGet (some item) "precision" = some (.integer tag.precision)
  description : jsonObjectGet (some item) "description" = tag.description.map .string
  value : (jsonObjectGet (some item) "value" = none ∧ tag.value = .undefine) ∨
    ∃ ob, jsonObjectGet (some item) "value" = some ob ∧
      decodeAs casts ob (resolved .undefine ob) = .ok tag.value
  fits : neuJsonTagCheckType tag = true

/-- Of a tag what its check looks at, whatever the rest is. Numbers that are none count as 0. -/
def claimed (item : Json) : NeuJsonTag where
  address := .lit ""
  name := .lit ""
  description := none
  type := jsonIntegerValue (jsonObjectGet (some item) "type")
  attributes := jsonIntegerValue (jsonObjectGet (some item) "attribute")
  precision := 0
  decimal := 0
  value :=
    match jsonObjectGet (some item) "value" with
    | some (.string text) => .str text
    | some (.real bits) => .double bits.toNat
    | some .true => .bool true
    | some .false => .bool false
    | some (.integer n) => .int n
    | some (.array _) => .bytes []
    | _ => .undefine

def SoundTag (item : Json) : Prop :=
  ∀ elem ∈ tagElems, ¬ Faulty item elem ∧ ¬ Refused item elem

def AcceptedTag (item : Json) : Prop :=
  SoundTag item ∧ neuJsonTagCheckType (claimed item) = true

/-- The first element that stops the decoder is one it refuses, or nothing does and the value does
not fit the tag. -/
def RefusedTag (item : Json) : Prop :=
  RefusedFirst item tagElems ∨ SoundTag item ∧ neuJsonTagCheckType (claimed item) = false

section
variable {casts : CastOps} {root item : Json} {name : String} {value : Option NeuJsonValue}
  {tag : NeuJsonTag}

theorem decodeObject_int_ok (ok : decodeObject casts root (required name .int) = .ok value) :
    value = some (.int (jsonIntegerValue (jsonObjectGet (some root) name))) := by
  rw [decodeObject, required_name, elemJson_named] at ok
  cases present : jsonObjectGet (some root) name with
  | none =>
    rw [present] at ok
    cases ok
  | some ob =>
    rw [present] at ok
    cases ok
    rfl

theorem decodeObject_optional (casts : CastOps) (root : Json) (name : String) (type : NeuJsonType) :
    decodeObject casts root (optionally name type) =
      match jsonObjectGet (some root) name with
      | none => .ok none
      | some ob => (decodeAs casts ob (resolved type ob)).map some := by
  rw [decodeObject, optionally_name, elemJson_named]
  rfl

def tagWith (item : Json) (name address : CStr)
    (decimal precision description value : Option NeuJsonValue) :
    NeuJsonTag where
  address := address
  name := name
  type := jsonIntegerValue (jsonObjectGet (some item) "type")
  attributes := jsonIntegerValue (jsonObjectGet (some item) "attribute")
  description := textOf description
  precision := intOf precision
  decimal := doubleOf decimal
  value := value.getD .undefine

theorem decodeTag_elems (casts : CastOps) (item : Json) :
    neuJsonDecodeByJson casts (some item) tagElems = (do
      let type ← decodeObject casts item (required "type" .int)
      let name ← decodeObject casts item (required "name" .str)
      let attributes ← decodeObject casts item (required "attribute" .int)
      let address ← decodeObject casts item (required "address" .str)
      let decimal ← decodeObject casts item (optionally "decimal" .double)
      let precision ← decodeObject casts item (optionally "precision" .int)
      let description ← decodeObject casts item (optionally "description" .str)
      let value ← decodeObject casts item (optionally "value" .undefine)
      pure [type, name, attributes, address, decimal, precision, description, value]) := by
  simp only [neuJsonDecodeByJson, tagElems, List.mapM_cons, List.mapM_nil, pure_bind, bind_assoc]

theorem decodeTag_read {name address : CStr} {decimal precision description : Option NeuJsonValue}
    (type : decodeObject casts item (required "type" .int) =
      .ok (some (.int (jsonIntegerValue (jsonObjectGet (some item) "type")))))
    (nameIs : jsonObjectGet (some item) "name" = some (.string name))
    (attributes : decodeObject casts item (required "attribute" .int) =
      .ok (some (.int (jsonIntegerValue (jsonObjectGet (some item) "attribute")))))
    (addressIs : jsonObjectGet (some item) "address" = some (.string address))
    (decimalIs : decodeObject casts item (optionally "decimal" .double) = .ok decimal)
    (precisionIs : decodeObject casts item (optionally "precision" .int) = .ok precision)
    (descriptionIs : decodeObject casts item (optionally "description" .str) = .ok description)
    (valueIs : decodeObject casts item (optionally "value" .undefine) = .ok value) :
    neuJsonDecodeTagJson casts (some item) =
      if neuJsonTagCheckType (tagWith item name address decimal precision description value) then
        .ok (tagWith item name address decimal precision description value)
      else .error .failed := by
  have nameText := (@decodeObject_str_ok casts _ _ _).2 ⟨name, nameIs, rfl⟩
  have addressText := (@decodeObject_str_ok casts _ _ _).2 ⟨address, addressIs, rfl⟩
  rw [neuJsonDecodeTagJson, decodeTag_elems, type, nameText, attributes, addressText, decimalIs,
    precisionIs, descriptionIs, valueIs]
  rfl

theorem fitsStatic_bytes (values : List UInt8) (type : Option NeuType) :
    fitsStatic (.bytes values) type = fitsStatic (.bytes []) type := by
  cases type with
  | none => rfl
  | some type => cases type <;> rfl

/-- The check looks at the kind of the value, not at its bytes. -/
theorem checkType_claimed {name address : CStr} {decimal precision description : Option NeuJsonValue}
    (valueIs : decodeObject casts item (optionally "value" .undefine) = .ok value) :
    neuJsonTagCheckType (tagWith item name address decimal precision description value) =
      neuJsonTagCheckType (claimed item) := by
  rw [decodeObject_optional] at valueIs
  unfold neuJsonTagCheckType tagWith claimed
  dsimp only
  cases there : jsonObjectGet (some item) "value" with
  | none =>
    rw [there] at valueIs
    cases valueIs
    rfl
  | some ob =>
    rw [there] at valueIs
    cases ob with
    | array items =>
      dsimp only at valueIs
      cases decoded : decodeAs casts (.array items) (resolved .undefine (.array items)) with
      | error e =>
        rw [decoded] at valueIs
        cases valueIs
      | ok given =>
        obtain ⟨values, rfl⟩ := decodeAs_array_ok decoded
        rw [decoded] at valueIs
        cases valueIs
        simp only [Option.getD_some, fitsStatic_bytes values]
    | object members => cases valueIs
    | null => cases valueIs
    | _ =>
      cases valueIs
      rfl

theorem decodeTag_sound (casts : CastOps) (sound : SoundTag item) :
    ∃ tag, neuJsonDecodeTagJson casts (some item) =
        (if neuJsonTagCheckType tag then .ok tag else .error .failed) ∧
      neuJsonTagCheckType tag = neuJsonTagCheckType (claimed item) := by
  have decodes (elem : NeuJsonElem) (inside : elem ∈ tagElems) :
      ∃ value, decodeObject casts item elem = .ok value :=
    decodeObject_ok_iff.2 (sound elem inside)
  obtain ⟨type, typeIs⟩ := decodes (required "type" .int) (by simp [tagElems])
  obtain ⟨nameText, nameIs⟩ := decodes (required "name" .str) (by simp [tagElems])
  obtain ⟨attributes, attributesAre⟩ := decodes (required "attribute" .int) (by simp [tagElems])
  obtain ⟨addressText, addressIs⟩ := decodes (required "address" .str) (by simp [tagElems])
  obtain ⟨decimal, decimalIs⟩ := decodes (optionally "decimal" .double) (by simp [tagElems])
  obtain ⟨precision, precisionIs⟩ := decodes (optionally "precision" .int) (by simp [tagElems])
  obtain ⟨description, descriptionIs⟩ := decodes (optionally "description" .str) (by simp [tagElems])
  obtain ⟨value, valueIs⟩ := decodes (optionally "value" .undefine) (by simp [tagElems])
  obtain rfl := decodeObject_int_ok typeIs
  obtain rfl := decodeObject_int_ok attributesAre
  obtain ⟨name, named, _⟩ := decodeObject_str_ok.1 nameIs
  obtain ⟨address, addressed, _⟩ := decodeObject_str_ok.1 addressIs
  refine ⟨tagWith item name address decimal precision description value, ?_, ?_⟩
  · exact decodeTag_read typeIs named attributesAre addressed decimalIs precisionIs descriptionIs valueIs
  · exact checkType_claimed valueIs

theorem decodeTag_error {e : DecodeError}
    (stopped : neuJsonDecodeByJson casts (some item) tagElems = .error e) :
    neuJsonDecodeTagJson casts (some item) = .error e := by
  rw [neuJsonDecodeTagJson, stopped]
  rfl

inductive TagEnds (casts : CastOps) (item : Json) : Prop
  | accepted (tag : NeuJsonTag) (ran : neuJsonDecodeTagJson casts (some item) = .ok tag)
      (accepts : AcceptedTag item) (kept : ¬ RefusedTag item)
  | refused (ran : neuJsonDecodeTagJson casts (some item) = .error .failed)
      (rejected : ¬ AcceptedTag item) (refuses : RefusedTag item)
  | faulty (ran : neuJsonDecodeTagJson casts (some item) = .error .crashed)
      (rejected : ¬ AcceptedTag item) (kept : ¬ RefusedTag item)

theorem tag_ends (casts : CastOps) (item : Json) : TagEnds casts item := by
  by_cases sound : SoundTag item
  · have goesOn : ¬ RefusedFirst item tagElems := by
      rintro ⟨front, elem, rest, split, _, refuses⟩
      exact (sound elem (split ▸ List.mem_append_right _ List.mem_cons_self)).2 refuses
    obtain ⟨tag, ran, same⟩ := decodeTag_sound casts sound
    cases fits : neuJsonTagCheckType (claimed item) with
    | true =>
      rw [same, fits, if_pos rfl] at ran
      refine .accepted tag ran ⟨sound, fits⟩ ?_
      rintro (refuses | ⟨_, misfits⟩)
      · exact goesOn refuses
      · cases fits.symm.trans misfits
    | false =>
      rw [same, fits, if_neg Bool.false_ne_true] at ran
      exact .refused ran (fun accepts => by cases fits.symm.trans accepts.2) (.inr ⟨sound, fits⟩)
  · have rejected : ¬ AcceptedTag item := fun accepts => sound accepts.1
    cases stopped : neuJsonDecodeByJson casts (some item) tagElems with
    | ok values =>
      refine absurd (fun elem inside => ?_) sound
      exact (@decodeObject_ok_iff casts _ _).1 (mapM_member stopped inside)
    | error e =>
      cases e with
      | failed =>
        exact .refused (decodeTag_error stopped) rejected (.inl (decodeByJson_failed_iff.1 stopped))
      | crashed =>
        refine .faulty (decodeTag_error stopped) rejected ?_
        rintro (refuses | ⟨sound', _⟩)
        · cases stopped.symm.trans ((@decodeByJson_failed_iff casts _ _).2 refuses)
        · exact sound sound'

theorem TagOf.decoded (is : TagOf casts item tag) :
    neuJsonDecodeTagJson casts (some item) = .ok tag := by
  have int {name : String} {n : Int} (there : jsonObjectGet (some item) name = some (.integer n)) :
      decodeObject casts item (required name .int) =
        .ok (some (.int (jsonIntegerValue (jsonObjectGet (some item) name)))) := by
    rw [decodeObject, required_name, elemJson_named, there]
    rfl
  obtain ⟨decimal, decimalIs, decimalValue⟩ : ∃ value,
      decodeObject casts item (optionally "decimal" .double) = .ok value ∧ doubleOf value = tag.decimal := by
    rw [decodeObject_optional]
    obtain ⟨there, value⟩ | ⟨n, there, value⟩ | ⟨bits, there, value⟩ := is.decimal
    · exact ⟨none, by rw [there], value.symm⟩
    · exact ⟨some (.double (casts.ofInt n)), by rw [there]; rfl, value.symm⟩
    · exact ⟨some (.double bits.toNat), by rw [there]; rfl, value.symm⟩
  obtain ⟨precision, precisionIs, precisionValue⟩ : ∃ value,
      decodeObject casts item (optionally "precision" .int) = .ok value ∧ intOf value = tag.precision := by
    rw [decodeObject_optional]
    obtain ⟨there, value⟩ | there := is.precision
    · exact ⟨none, by rw [there], value.symm⟩
    · exact ⟨some (.int tag.precision), by rw [there]; rfl, rfl⟩
  obtain ⟨description, descriptionIs, descriptionValue⟩ : ∃ value,
      decodeObject casts item (optionally "description" .str) = .ok value ∧
        textOf value = tag.description := by
    rw [decodeObject_optional, is.description]
    cases tag.description with
    | none => exact ⟨none, rfl, rfl⟩
    | some text => exact ⟨some (.str text), rfl, rfl⟩
  obtain ⟨value, valueIs, valueValue⟩ : ∃ value,
      decodeObject casts item (optionally "value" .undefine) = .ok value ∧
        value.getD .undefine = tag.value := by
    rw [decodeObject_optional]
    obtain ⟨there, value⟩ | ⟨ob, there, decoded⟩ := is.value
    · exact ⟨none, by rw [there], value.symm⟩
    · refine ⟨some tag.value, ?_, rfl⟩
      rw [there]
      dsimp only
      rw [decoded]
      rfl
  have made : tagWith item tag.name tag.address decimal precision description value = tag := by
    unfold tagWith
    rw [is.type, is.attributes, decimalValue, precisionValue, descriptionValue, valueValue]
    rfl
  have read := decodeTag_read (int is.type) is.name (int is.attributes) is.address decimalIs
    precisionIs descriptionIs valueIs
  rw [made, if_pos is.fits] at read
  exact read

theorem decodeTag_values {values : List (Option NeuJsonValue)}
    (ok : neuJsonDecodeByJson casts (some item) tagElems = .ok values) :
    ∃ type name attributes address decimal precision description value,
      values = [some (.int type), some (.str name), some (.int attributes), some (.str address),
        decimal, precision, description, value] := by
  rw [decodeTag_elems] at ok
  obtain ⟨type, typeIs, ok⟩ := bind_ok ok
  obtain ⟨name, nameIs, ok⟩ := bind_ok ok
  obtain ⟨attributes, attributesAre, ok⟩ := bind_ok ok
  obtain ⟨address, addressIs, ok⟩ := bind_ok ok
  obtain ⟨decimal, _, ok⟩ := bind_ok ok
  obtain ⟨precision, _, ok⟩ := bind_ok ok
  obtain ⟨description, _, ok⟩ := bind_ok ok
  obtain ⟨value, _, ok⟩ := bind_ok ok
  cases ok
  obtain rfl := decodeObject_int_ok typeIs
  obtain rfl := decodeObject_int_ok attributesAre
  obtain ⟨name, _, rfl⟩ := decodeObject_str_ok.1 nameIs
  obtain ⟨address, _, rfl⟩ := decodeObject_str_ok.1 addressIs
  exact ⟨_, _, _, _, _, _, _, _, rfl⟩

end

end Cpm
