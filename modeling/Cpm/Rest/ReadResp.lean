import Cpm.Driver.Read
import Cpm.Rest.Meaning

/-! The answer to a read request, from `rw_handle.c` and `neu_json_rw.c`: the results of a group as
one JSON document. -/
namespace Cpm

open Lib

structure NeuJsonTagMeta where
  name : CStr
  value : NeuJsonValue

/-- `n_meta` is the length of `metas`. -/
structure NeuJsonReadRespTag where
  error : Int
  name : CStr
  value : NeuJsonValue
  precision : UInt8
  metas : List NeuJsonTagMeta

/-- The metas up to the first place without a name. -/
def countedMetas (metas : Metas) : List NeuTagMeta :=
  (((List.finRange NEU_TAG_META_SIZE).map metas).takeWhile fun place =>
    place.any fun entry => entry.name ≠ .empty).reduceOption

/-- A type that the switch leaves out keeps the cleared element, which has none. -/
def metaJsonValue (u : ValueU) : NeuType → NeuJsonValue
  | .uint8 => .int (u.unsigned 1)
  | .int8 => .int (u.signed 1)
  | .int16 => .int (u.signed 2)
  | .int32 => .int (u.signed 4)
  | .int64 => .int (u.signed 8)
  | .word | .uint16 => .int (u.unsigned 2)
  | .dword | .uint32 => .int (u.unsigned 4)
  | .lword | .uint64 => .int (u.signed 8)
  | .float => .float u.f32
  | .double => .double u.d64
  | .bool => .bool (u.unsigned 1 ≠ 0)
  | .bit => .bit (u.byte 0)
  | .string => .str (strOf u)
  | .bytes | .error | .ptr | .unlisted _ => .undefine

def neuJsonMetasToJson (metas : Metas) : List NeuJsonTagMeta :=
  (countedMetas metas).map fun entry =>
    ⟨entry.name, metaJsonValue entry.value.value entry.value.type⟩

def ptrText (data : List UInt8) : CStr := .read (data.map fun b => Char.ofNat b.toNat)

def readJsonValue (u : ValueU) (data : List UInt8) : NeuType → NeuJsonValue
  | .int8 => .int (u.signed 1)
  | .uint8 => .int (u.unsigned 1)
  | .int16 => .int (u.signed 2)
  | .word | .uint16 => .int (u.unsigned 2)
  | .int32 => .int (u.signed 4)
  | .dword | .uint32 => .int (u.unsigned 4)
  | .int64 => .int (u.signed 8)
  | .lword | .uint64 => .int (u.signed 8)
  | .float => .float u.f32
  | .double => .double u.d64
  | .bit => .bit (u.byte 0)
  | .bool => .bool (u.unsigned 1 ≠ 0)
  | .string => .str (strOf u)
  | .bytes => .bytes (u.window 0 u.bytesLength).toList
  | .error => .int (u.signed 4)
  | .ptr => .str (ptrText data)
  | .unlisted _ => .undefine

def readRespTag (tag : NeuRespTagValueMeta) : NeuJsonReadRespTag where
  error := if tag.value.type = .error then tag.value.value.signed 4 else 0
  name := tag.tag
  value := readJsonValue tag.value.value tag.data tag.value.type
  precision := if tag.value.type = .float ∨ tag.value.type = .double then tag.value.precision else 0
  metas := neuJsonMetasToJson tag.metas

def readRespElems (tag : NeuJsonReadRespTag) : List (ElemName × NeuJsonValue) :=
  (.own "name", .str tag.name) ::
    (if tag.error ≠ 0 then (.own "error", .int tag.error) else (.own "value", tag.value)) ::
    tag.metas.map fun entry => (.given entry.name, entry.value)

def readRespObject (j : Jansson) (casts : CastOps) (tag : NeuJsonReadRespTag) : Json :=
  neuJsonEncodeField j casts (.object []) (readRespElems tag)

def neuJsonEncodeReadResp (j : Jansson) (casts : CastOps) (object : Json)
    (tags : List NeuJsonReadRespTag) : Json :=
  neuJsonEncodeField j casts object
    [("tags", .object (.array (tags.map (readRespObject j casts))))]

def handleReadResp (j : Jansson) (casts : CastOps) (tags : List NeuRespTagValueMeta) : Json :=
  neuJsonEncodeReadResp j casts (.object []) (tags.map readRespTag)

/- What results and documents say. -/

/-- What the union says for the type, each member with its own sign. -/
def storedMeaning (u : ValueU) (data : List UInt8) : NeuType → Option Meaning
  | .int8 => some (.number (u.signed 1))
  | .int16 => some (.number (u.signed 2))
  | .int32 | .error => some (.number (u.signed 4))
  | .int64 => some (.number (u.signed 8))
  | .uint8 | .bit => some (.number (u.unsigned 1))
  | .uint16 | .word => some (.number (u.unsigned 2))
  | .uint32 | .dword => some (.number (u.unsigned 4))
  | .uint64 | .lword => some (.number (u.unsigned 8))
  | .float => finiteMeaning .binary32 u.f32
  | .double => finiteMeaning .binary64 u.d64
  | .bool => some (.boolean (u.unsigned 1 ≠ 0))
  | .string => some (.text (strOf u))
  | .bytes => some (.bytes (u.window 0 u.bytesLength).toList)
  | .ptr => some (.text (ptrText data))
  | .unlisted _ => none

def NeuRespTagValueMeta.meaning (tag : NeuRespTagValueMeta) : Option Meaning :=
  storedMeaning tag.value.value tag.data tag.value.type

def jsonByte : Json → Option UInt8
  | .integer n => if 0 ≤ n ∧ n < 256 then some (.ofNat n.toNat) else none
  | _ => none

def jsonMeaning : Json → Option Meaning
  | .integer n => some (.number n)
  | .real bits => finiteMeaning .binary64 bits.toNat
  | .string text => some (.text text)
  | .true => some (.boolean true)
  | .false => some (.boolean false)
  | .array items => (items.mapM jsonByte).map .bytes
  | .object _ | .null => none

def shownKey (tag : NeuRespTagValueMeta) : String :=
  if tag.value.type = .error then "error" else "value"

/-- The object gives what the result says, and an error exactly where the result is one. -/
def Shows (tag : NeuRespTagValueMeta) (json : Json) : Prop :=
  (∃ field m, jsonObjectGet (some json) (shownKey tag) = some field ∧
    jsonMeaning field = some m ∧ tag.meaning = some m) ∧
    ((jsonObjectGet (some json) "error").isSome = true ↔ tag.value.type = .error)

def ShowsAll (tags : List NeuRespTagValueMeta) (document : Json) : Prop :=
  ∃ objects, document = .object [("tags", .array objects)] ∧ List.Forall₂ Shows tags objects

/- Which results are shown as they are. -/

def OwnShown (j : Jansson) (tag : NeuRespTagValueMeta) : Prop :=
  match tag.value.type with
  | .uint64 | .lword => tag.value.value.unsigned 8 < 2 ^ 63
  | .string => j.utf8 (strOf tag.value.value) = true
  | .ptr => j.utf8 (ptrText tag.data) = true
  | .error => tag.value.value.signed 4 ≠ 0
  | _ => True

def metaWritten (j : Jansson) (u : ValueU) : NeuType → Bool
  | .float => !Ieee.binary32.special u.f32
  | .double => !Ieee.binary64.special u.d64
  | .string => j.utf8 (strOf u)
  | .bytes | .error | .ptr | .unlisted _ => false
  | _ => true

/-- The last written meta of this name, which takes the place of a member. -/
def coveringMeta (j : Jansson) (metas : Metas) (key : String) : Option NeuTagMeta :=
  (countedMetas metas).reverse.find? fun entry =>
    j.utf8 entry.name && (jsonKey entry.name = key &&
      metaWritten j entry.value.value entry.value.type)

/-- What a meta says with its words of 64 bits taken as signed. -/
def signedMeaning (u : ValueU) : NeuType → Option Meaning
  | .uint64 | .lword => some (.number (u.signed 8))
  | type => storedMeaning u [] type

/-- No meta stands in the way, unless it says the same. -/
def Showable (j : Jansson) (tag : NeuRespTagValueMeta) : Prop :=
  (match coveringMeta j tag.metas (shownKey tag) with
    | some entry => signedMeaning entry.value.value entry.value.type = tag.meaning
    | none => OwnShown j tag) ∧
  (tag.value.type ≠ .error → coveringMeta j tag.metas "error" = none)

theorem findSome_filter_map {α β γ : Type} (p : α → Bool) (g : α → β) (f : β → Option γ)
    (l : List α) : ((l.filter p).map g).reverse.findSome? f =
      (l.reverse.find? fun a => p a && (f (g a)).isSome).bind fun a => f (g a) := by
  rw [← List.map_reverse, ← List.filter_reverse]
  induction l.reverse with
  | nil => rfl
  | cons a rest ih =>
    rw [List.filter_cons, List.find?_cons]
    cases keeps : p a with
    | false => simpa using ih
    | true =>
      cases written : f (g a) with
      | none => simpa [written] using ih
      | some _ => simp [written]

section
variable {j : Jansson} {casts : CastOps}

/-- Under each name stands the last element that could be set. -/
theorem encoded_lookup (j : Jansson) (casts : CastOps)
    (elements : List (String × NeuJsonValue)) (members : List (String × Json)) :
    ∃ after, neuJsonEncodeField j casts (.object members) (own elements) = .object after ∧
      ∀ key, after.lookup key = (elements.reverse.findSome? fun element =>
        if element.1 = key then elementJson j casts element.2 else none).or (members.lookup key) := by
  induction elements generalizing members with
  | nil => exact ⟨members, rfl, fun _ => rfl⟩
  | cons element rest ih =>
    cases encoded : elementJson j casts element.2 with
    | none =>
      obtain ⟨after, built, found⟩ := ih members
      have first : encodeObject j casts (.object members) (.own element.1, element.2) =
          .object members := by
        rw [encodeObject, encoded, jsonObjectSet_none]
      refine ⟨after, ?_, fun key => ?_⟩
      · rw [own_cons, neuJsonEncodeField, List.foldl_cons, first]
        exact built
      · rw [found, List.reverse_cons, List.findSome?_append]
        simp [encoded]
    | some json =>
      obtain ⟨after, built, found⟩ := ih (setMember element.1 json members)
      have first : encodeObject j casts (.object members) (.own element.1, element.2) =
          .object (setMember element.1 json members) := by
        rw [encodeObject, encoded, jsonObjectSet_own]
      refine ⟨after, ?_, fun key => ?_⟩
      · rw [own_cons, neuJsonEncodeField, List.foldl_cons, first]
        exact built
      · rw [found, lookup_setMember, List.reverse_cons, List.findSome?_append, Option.or_assoc]
        congr 1
        by_cases here : element.1 = key
        · simp [here, encoded]
        · simp [here, Ne.symm here]

def takenElems (j : Jansson) (tag : NeuJsonReadRespTag) : List (String × NeuJsonValue) :=
  ("name", .str tag.name) ::
    (if tag.error ≠ 0 then ("error", .int tag.error) else ("value", tag.value)) ::
    (tag.metas.filter fun entry => j.utf8 entry.name).map fun entry =>
      (jsonKey entry.name, entry.value)

theorem taken_given {α : Type} (name : α → CStr) (value : α → NeuJsonValue) (items : List α) :
    taken j (items.map fun item => (.given (name item), value item)) =
      (items.filter fun item => j.utf8 (name item)).map fun item => (jsonKey (name item), value item) := by
  unfold taken
  induction items with
  | nil => rfl
  | cons item rest ih =>
    cases legible : j.utf8 (name item) with
    | false => simpa [ElemName.key, legible] using ih
    | true => simpa [ElemName.key, legible] using ih

theorem taken_elems (tag : NeuJsonReadRespTag) : taken j (readRespElems tag) = takenElems j tag := by
  have metas := taken_given (j := j) NeuJsonTagMeta.name NeuJsonTagMeta.value tag.metas
  unfold taken at metas
  unfold taken readRespElems takenElems
  rw [← metas]
  by_cases error : tag.error = 0 <;> simp [error]

theorem readRespObject_lookup (j : Jansson) (casts : CastOps) (tag : NeuJsonReadRespTag) :
    ∃ members, readRespObject j casts tag = .object members ∧
      ∀ key, members.lookup key = (takenElems j tag).reverse.findSome? fun element =>
        if element.1 = key then elementJson j casts element.2 else none := by
  obtain ⟨members, built, found⟩ := encoded_lookup j casts (takenElems j tag) []
  refine ⟨members, ?_, fun key => (found key).trans Option.or_none⟩
  rw [readRespObject, encodeField_taken, taken_elems]
  exact built

def InWidth : NeuJsonValue → Prop
  | .float bits => bits < 2 ^ 32
  | .double bits => bits < 2 ^ 64
  | .object _ => False
  | _ => True

theorem jsonByte_encoded (b : UInt8) : jsonByte (.integer b.toNat) = some b := by
  have small : (0 : Int) ≤ b.toNat ∧ (b.toNat : Int) < 256 := by
    have byte := b.toNat_lt
    omega
  rw [jsonByte, if_pos small, Int.toNat_natCast, UInt8.ofNat_toNat]

theorem elementJson_meaning (laws : FloatLaws casts) (exact : ExactCasts casts) {value : NeuJsonValue}
    {json : Json} (width : InWidth value) (encoded : elementJson j casts value = some json) :
    jsonMeaning json = value.meaning := by
  cases value with
  | undefine => cases encoded
  | object => exact width.elim
  | int n | bit n =>
    cases encoded
    rfl
  | str text =>
    simp only [elementJson, jsonString] at encoded
    split at encoded
    · cases encoded
      rfl
    · cases encoded
  | bool b =>
    cases encoded
    cases b <;> rfl
  | double bits =>
    have whole : (UInt64.ofNat bits).toNat = bits := UInt64.toNat_ofNat_of_lt' width
    simp only [elementJson, jsonReal] at encoded
    split at encoded
    · cases encoded
    · cases encoded
      simp only [jsonMeaning, whole, NeuJsonValue.meaning]
  | float bits =>
    have whole : (UInt64.ofNat (casts.ofFloat bits)).toNat = casts.ofFloat bits :=
      UInt64.toNat_ofNat_of_lt' (laws.wide bits)
    simp only [elementJson, jsonReal] at encoded
    split at encoded
    · cases encoded
    · next finite =>
      cases encoded
      have plain : Ieee.binary32.special bits = false :=
        (laws.finite bits width).symm.trans (Bool.not_eq_true _ ▸ finite)
      obtain ⟨_, finite', value⟩ := exact.ofFloat bits _ ⟨width, plain, rfl⟩
      simp [jsonMeaning, whole, NeuJsonValue.meaning, finiteMeaning, plain, finite', value]
  | bytes values =>
    cases encoded
    have each : (values.map fun b => Json.integer b.toNat).mapM jsonByte = some values := by
      induction values with
      | nil => rfl
      | cons b rest ih =>
        rw [List.map_cons, List.mapM_cons, jsonByte_encoded, ih trivial]
        rfl
    rw [jsonMeaning, each]
    rfl

theorem f32_lt (u : ValueU) : u.f32 < 2 ^ 32 := (u.window 0 4).leValue_lt

theorem d64_lt (u : ValueU) : u.d64 < 2 ^ 64 := (u.window 0 8).leValue_lt

theorem finiteMeaning_finite {f : Ieee} {bits : Nat} (finite : (finiteMeaning f bits).isSome = true) :
    f.special bits = false := by
  unfold finiteMeaning at finite
  split at finite
  · cases finite
  · next plain => exact Bool.not_eq_true _ ▸ plain

theorem unsigned_byte (u : ValueU) : (u.byte 0).toNat = u.unsigned 1 := by
  simp [ValueU.unsigned, Block.leValue, Block.toList, Block.window]

theorem meta_json (laws : FloatLaws casts) (exact : ExactCasts casts) (u : ValueU) (type : NeuType) :
    (elementJson j casts (metaJsonValue u type)).isSome = metaWritten j u type ∧
      ∀ json, elementJson j casts (metaJsonValue u type) = some json →
        jsonMeaning json = signedMeaning u type := by
  have width : InWidth (metaJsonValue u type) := by
    cases type
    case float => exact f32_lt u
    case double => exact d64_lt u
    all_goals trivial
  constructor
  · cases type
    case float =>
      have finite := laws.finite u.f32 (f32_lt u)
      simp only [metaJsonValue, elementJson, jsonReal, metaWritten, finite]
      cases Ieee.binary32.special u.f32 <;> rfl
    case double =>
      simp only [metaJsonValue, elementJson, jsonReal, metaWritten]
      cases Ieee.binary64.special u.d64 <;> rfl
    case string =>
      simp only [metaJsonValue, elementJson, jsonString, metaWritten]
      cases j.utf8 (strOf u) <;> rfl
    all_goals rfl
  · intro json encoded
    rw [elementJson_meaning laws exact width encoded]
    cases type
    case bit => exact congrArg (fun n : Nat => some (Meaning.number n)) (unsigned_byte u)
    case bytes | error | ptr | unlisted => cases encoded
    all_goals rfl

/-- Of the numbers of 64 bits, the signed reading is the unsigned one below the sign bit. -/
theorem signed_eq_unsigned (u : ValueU) : u.signed 8 = u.unsigned 8 ↔ u.unsigned 8 < 2 ^ 63 := by
  have small := u.unsigned_lt 8
  have reads : u.signed 8 = (u.unsigned 8 : Int).bmod (256 ^ 8) := rfl
  rw [reads, Int.bmod_def]
  omega

theorem own_shown (laws : FloatLaws casts) (exact : ExactCasts casts) {tag : NeuRespTagValueMeta}
    (finite : tag.meaning.isSome = true) (plain : tag.value.type ≠ .error) :
    (∃ field m, elementJson j casts (readRespTag tag).value = some field ∧
      jsonMeaning field = some m ∧ tag.meaning = some m) ↔ OwnShown j tag := by
  obtain ⟨name, ⟨type, u, precision⟩, data, metas⟩ := tag
  obtain ⟨m, means⟩ := Option.isSome_iff_exists.1 finite
  have width : InWidth (readJsonValue u data type) := by
    cases type
    case float => exact f32_lt u
    case double => exact d64_lt u
    all_goals trivial
  have tells (field : Json) (encoded : elementJson j casts (readJsonValue u data type) = some field) :
      jsonMeaning field = (readJsonValue u data type).meaning :=
    elementJson_meaning laws exact width encoded
  have told : (∃ field m, elementJson j casts (readJsonValue u data type) = some field ∧
      jsonMeaning field = some m ∧ storedMeaning u data type = some m) ↔
        (elementJson j casts (readJsonValue u data type)).isSome = true ∧
          (readJsonValue u data type).meaning = storedMeaning u data type := by
    constructor
    · rintro ⟨field, m, encoded, meaning, stored⟩
      exact ⟨Option.isSome_iff_exists.2 ⟨field, encoded⟩,
        (tells field encoded).symm.trans (meaning.trans stored.symm)⟩
    · rintro ⟨encodes, same⟩
      obtain ⟨field, encoded⟩ := Option.isSome_iff_exists.1 encodes
      exact ⟨field, m, encoded, (tells field encoded).trans (same.trans means), means⟩
  refine told.trans ?_
  cases type
  case uint64 | lword =>
    simp only [OwnShown, readJsonValue, elementJson, NeuJsonValue.meaning, storedMeaning,
      Option.isSome_some, true_and, Option.some.injEq, Meaning.number.injEq]
    rw [← signed_eq_unsigned]
    exact_mod_cast Iff.rfl
  case string | ptr =>
    simp [OwnShown, readJsonValue, elementJson, jsonString, NeuJsonValue.meaning, storedMeaning]
  case error => exact absurd rfl plain
  case unlisted => cases finite
  case float =>
    have plain : Ieee.binary32.special u.f32 = false := finiteMeaning_finite finite
    refine iff_of_true ⟨?_, rfl⟩ trivial
    simp [readJsonValue, elementJson, jsonReal, laws.finite u.f32 (f32_lt u), plain]
  case double =>
    have plain : Ieee.binary64.special u.d64 = false := finiteMeaning_finite finite
    refine iff_of_true ⟨?_, rfl⟩ trivial
    simp [readJsonValue, elementJson, jsonReal, plain]
  case bit =>
    have same := congrArg (fun n : Nat => some (Meaning.number n)) (unsigned_byte u)
    exact iff_of_true ⟨rfl, same⟩ trivial
  all_goals exact iff_of_true ⟨rfl, rfl⟩ trivial

def ownMember (j : Jansson) (casts : CastOps) (tag : NeuRespTagValueMeta) (key : String) :
    Option Json :=
  if (readRespTag tag).error ≠ 0 then
    if "error" = key then some (.integer (readRespTag tag).error) else none
  else if "value" = key then elementJson j casts (readRespTag tag).value else none

def memberOf (j : Jansson) (casts : CastOps) (tag : NeuRespTagValueMeta) (key : String) : Option Json :=
  ((coveringMeta j tag.metas key).bind fun entry =>
    elementJson j casts (metaJsonValue entry.value.value entry.value.type)).or
      (ownMember j casts tag key)

theorem coveringMeta_written (laws : FloatLaws casts) (exact : ExactCasts casts) {metas : Metas}
    {key : String} {entry : NeuTagMeta} (covers : coveringMeta j metas key = some entry) :
    ∃ json, elementJson j casts (metaJsonValue entry.value.value entry.value.type) = some json ∧
      jsonMeaning json = signedMeaning entry.value.value entry.value.type := by
  have met := List.find?_some covers
  simp only [Bool.and_eq_true] at met
  have kind : _ ∧ _ := meta_json (j := j) laws exact entry.value.value entry.value.type
  obtain ⟨json, encoded⟩ := Option.isSome_iff_exists.1 (kind.1.trans met.2.2)
  exact ⟨json, encoded, kind.2 json encoded⟩

theorem metas_lookup (laws : FloatLaws casts) (exact : ExactCasts casts) (metas : Metas)
    (key : String) : (((neuJsonMetasToJson metas).filter fun entry => j.utf8 entry.name).map
        fun entry => (jsonKey entry.name, entry.value)).reverse.findSome?
      (fun element => if element.1 = key then elementJson j casts element.2 else none) =
    (coveringMeta j metas key).bind fun entry =>
      elementJson j casts (metaJsonValue entry.value.value entry.value.type) := by
  rw [neuJsonMetasToJson, List.filter_map, List.map_map, findSome_filter_map]
  have same (entry : NeuTagMeta) : (if jsonKey entry.name = key then
      elementJson j casts (metaJsonValue entry.value.value entry.value.type) else none).isSome =
      (decide (jsonKey entry.name = key) &&
        metaWritten j entry.value.value entry.value.type) := by
    rw [← (meta_json (j := j) laws exact entry.value.value entry.value.type).1]
    split
    · next here => simp [here]
    · next apart => simp [apart]
  simp only [Function.comp_apply, same]
  cases covers : coveringMeta j metas key with
  | none =>
    rw [coveringMeta] at covers
    rw [covers]
    rfl
  | some entry =>
    have met := List.find?_some covers
    simp only [Bool.and_eq_true, decide_eq_true_eq] at met
    rw [coveringMeta] at covers
    rw [covers, Option.bind_some, Option.bind_some, if_pos met.2.1]

theorem object_lookup (laws : FloatLaws casts) (exact : ExactCasts casts) (tag : NeuRespTagValueMeta) :
    ∃ members, readRespObject j casts (readRespTag tag) = .object members ∧
      ∀ key ≠ "name", members.lookup key = memberOf j casts tag key := by
  obtain ⟨members, built, found⟩ := readRespObject_lookup j casts (readRespTag tag)
  refine ⟨members, built, fun key other => ?_⟩
  have metas := metas_lookup (j := j) laws exact tag.metas key
  rw [found, takenElems, List.reverse_cons, List.reverse_cons, List.findSome?_append,
    List.findSome?_append]
  have own : (readRespTag tag).metas = neuJsonMetasToJson tag.metas := rfl
  rw [own, metas, Option.or_assoc, memberOf]
  congr 1
  unfold ownMember
  split
  · simp [Ne.symm other, elementJson]
  · simp [Ne.symm other]

theorem memberOf_covered {tag : NeuRespTagValueMeta} {key : String} {entry : NeuTagMeta} {json : Json}
    (covers : coveringMeta j tag.metas key = some entry)
    (encoded : elementJson j casts (metaJsonValue entry.value.value entry.value.type) = some json) :
    memberOf j casts tag key = some json := by
  rw [memberOf, covers, Option.bind_some, encoded, Option.some_or]

theorem memberOf_own {tag : NeuRespTagValueMeta} {key : String}
    (uncovered : coveringMeta j tag.metas key = none) :
    memberOf j casts tag key = ownMember j casts tag key := by
  rw [memberOf, uncovered, Option.bind_none, Option.none_or]

theorem value_member (laws : FloatLaws casts) (exact : ExactCasts casts) {tag : NeuRespTagValueMeta}
    (finite : tag.meaning.isSome = true) :
    (∃ field m, memberOf j casts tag (shownKey tag) = some field ∧
      jsonMeaning field = some m ∧ tag.meaning = some m) ↔
      match coveringMeta j tag.metas (shownKey tag) with
        | some entry => signedMeaning entry.value.value entry.value.type = tag.meaning
        | none => OwnShown j tag := by
  obtain ⟨m, means⟩ := Option.isSome_iff_exists.1 finite
  cases covers : coveringMeta j tag.metas (shownKey tag) with
  | some entry =>
    obtain ⟨json, encoded, meaning⟩ := coveringMeta_written laws exact covers
    have here := memberOf_covered covers encoded
    constructor
    · rintro ⟨field, n, there, told, stored⟩
      cases here.symm.trans there
      exact meaning.symm.trans (told.trans stored.symm)
    · intro same
      exact ⟨json, m, here, meaning.trans (same.trans means), means⟩
  | none =>
    rw [memberOf_own covers]
    by_cases error : tag.value.type = .error
    · have code : (readRespTag tag).error = tag.value.value.signed 4 := if_pos error
      have own : OwnShown j tag ↔ tag.value.value.signed 4 ≠ 0 := by rw [OwnShown, error]
      have stored : tag.meaning = some (.number (tag.value.value.signed 4)) := by
        rw [NeuRespTagValueMeta.meaning, error, storedMeaning]
      simp only
      rw [own, ownMember, shownKey, if_pos error, code]
      by_cases zero : tag.value.value.signed 4 = 0
      · simp [zero]
      · simp [zero, jsonMeaning, stored]
    · have none : (readRespTag tag).error = 0 := if_neg error
      simp only
      rw [← own_shown laws exact finite error, ownMember, shownKey, if_neg error, none]
      simp

/-- A result that is no error has an error member through a meta only. -/
theorem error_member (laws : FloatLaws casts) (exact : ExactCasts casts) {tag : NeuRespTagValueMeta}
    (plain : tag.value.type ≠ .error) :
    (memberOf j casts tag "error").isSome = true ↔ coveringMeta j tag.metas "error" ≠ none := by
  cases covers : coveringMeta j tag.metas "error" with
  | none =>
    have none : (readRespTag tag).error = 0 := if_neg plain
    rw [memberOf_own covers, ownMember, none]
    simp
  | some entry =>
    obtain ⟨json, encoded, _⟩ := coveringMeta_written laws exact covers
    simp [memberOf_covered covers encoded]

theorem shows_iff (laws : FloatLaws casts) (exact : ExactCasts casts) {tag : NeuRespTagValueMeta}
    (finite : tag.meaning.isSome = true) :
    Shows tag (readRespObject j casts (readRespTag tag)) ↔ Showable j tag := by
  obtain ⟨members, built, found⟩ := object_lookup (j := j) laws exact tag
  have keyed : shownKey tag ≠ "name" := by
    unfold shownKey
    split <;> decide
  have value := value_member (j := j) laws exact finite
  rw [← found _ keyed] at value
  rw [built, Shows, Showable]
  by_cases error : tag.value.type = .error
  · constructor
    · rintro ⟨shown, _⟩
      exact ⟨value.1 shown, fun plain => absurd error plain⟩
    · rintro ⟨own, _⟩
      obtain ⟨field, n, here, told⟩ := value.2 own
      refine ⟨⟨field, n, here, told⟩, iff_of_true ?_ error⟩
      have key : shownKey tag = "error" := if_pos error
      rw [key] at here
      exact Option.isSome_iff_exists.2 ⟨field, here⟩
  · have errors := error_member (j := j) laws exact error
    rw [← found _ (by decide)] at errors
    refine and_congr value ?_
    rw [iff_false_right error]
    constructor
    · intro absent _
      exact not_not.1 fun covers => absent (errors.2 covers)
    · intro uncovered present
      exact errors.1 present (uncovered error)

end

theorem read_resp_shows {casts : CastOps} (laws : FloatLaws casts) (exact : ExactCasts casts)
    (j : Jansson) (tags : List NeuRespTagValueMeta)
    (finite : ∀ tag ∈ tags, tag.meaning.isSome = true) :
    ShowsAll tags (handleReadResp j casts tags) ↔ ∀ tag ∈ tags, Showable j tag := by
  have built : handleReadResp j casts tags = .object [("tags", .array ((tags.map readRespTag).map
      (readRespObject j casts)))] := rfl
  unfold ShowsAll
  simp only [built, Json.object.injEq, List.cons.injEq, Prod.mk.injEq, Json.array.injEq, true_and,
    and_true, exists_eq_left', List.map_map]
  rw [List.forall₂_map_right_iff, List.forall₂_same]
  exact forall₂_congr fun tag member => shows_iff laws exact (finite tag member)

def plainResult (type : NeuType) (u : ValueU) : NeuRespTagValueMeta :=
  ⟨.lit "level", ⟨type, u, 0⟩, [], noMetas⟩

theorem read_resp_shows_two :
    ShowsAll [plainResult .uint16 (.ofU32 513), plainResult .error (.ofU32 3008)]
        (handleReadResp smallJansson ieeeCasts
          [plainResult .uint16 (.ofU32 513), plainResult .error (.ofU32 3008)]) ↔
      ∀ tag ∈ [plainResult .uint16 (.ofU32 513), plainResult .error (.ofU32 3008)],
        Showable smallJansson tag :=
  read_resp_shows ieeeCasts_laws ieeeCasts_exact smallJansson _
    (List.forall_mem_cons.2 ⟨rfl, List.forall_mem_cons.2 ⟨rfl, List.forall_mem_nil _⟩⟩)

/-- 2^63 is shown as -2^63. -/
theorem read_resp_wraps :
    (plainResult .uint64 (frontOf 8 (2 ^ 63))).meaning = some (.number (2 ^ 63 : Nat)) ∧
      handleReadResp smallJansson ieeeCasts [plainResult .uint64 (frontOf 8 (2 ^ 63))] =
        .object [("tags", .array [.object
          [("name", .string (.lit "level")), ("value", .integer (-2 ^ 63))]])] ∧
      ¬ ShowsAll [plainResult .uint64 (frontOf 8 (2 ^ 63))]
        (handleReadResp smallJansson ieeeCasts [plainResult .uint64 (frontOf 8 (2 ^ 63))]) := by
  have wide : (frontOf 8 (2 ^ 63)).unsigned 8 = 2 ^ 63 := frontOf_unsigned 8 (by decide) _
  have wrapped : (frontOf 8 (2 ^ 63)).signed 8 = -2 ^ 63 := by
    have reads : (frontOf 8 (2 ^ 63)).signed 8 =
      ((frontOf 8 (2 ^ 63)).unsigned 8 : Int).bmod (256 ^ 8) := rfl
    rw [reads, wide]
    decide
  have none : neuJsonMetasToJson noMetas = [] := rfl
  have ascii : smallJansson.utf8 (.lit "level") = true := by decide
  have document : handleReadResp smallJansson ieeeCasts [plainResult .uint64 (frontOf 8 (2 ^ 63))] =
      .object [("tags", .array [.object
        [("name", .string (.lit "level")), ("value", .integer (-2 ^ 63))]])] := by
    simpa [handleReadResp, neuJsonEncodeReadResp, neuJsonEncodeField, readRespObject, readRespTag,
      readRespElems, plainResult, none, encodeObject, elementJson, jsonString, ascii, setMember,
      readJsonValue] using wrapped
  have meaning : (plainResult .uint64 (frontOf 8 (2 ^ 63))).meaning = some (.number (2 ^ 63 : Nat)) :=
    congrArg (fun n : Nat => some (Meaning.number n)) wide
  refine ⟨meaning, document, ?_⟩
  rintro ⟨objects, built, shown⟩
  rw [document] at built
  cases built
  obtain ⟨⟨field, m, here, told, stored⟩, _⟩ := (List.forall₂_cons.1 shown).1
  cases here
  have numbers := told.trans (stored.symm.trans meaning)
  simp only [jsonMeaning, Option.some.injEq, Meaning.number.injEq] at numbers
  norm_num at numbers

end Cpm
