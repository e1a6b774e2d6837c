import Cpm.Rest.ByteArrays
import Cpm.Rest.GlobalConfig
import Cpm.Rest.WriteTagsReq

/-! The handlers of write requests, for one tag and for several, from `rw_handle.c`: what they refuse
and what they copy into a command. -/
namespace Cpm

open Lib Lib.Decode

def NEU_ERR_STRING_TOO_LONG : Int := 4100

structure NeuJsonWriteReq where
  group : CStr
  node : CStr
  tag : CStr
  value : NeuJsonValue

structure NeuReqWriteTag where
  driver : CharArray NEU_NODE_NAME_LEN
  group : CharArray NEU_GROUP_NAME_LEN
  tag : CharArray NEU_TAG_NAME_LEN
  value : NeuDvalue

structure NeuRespTagValue where
  tag : CharArray NEU_TAG_NAME_LEN
  value : NeuDvalue

structure NeuReqWriteTags where
  driver : CharArray NEU_NODE_NAME_LEN
  group : CharArray NEU_GROUP_NAME_LEN
  nTag : Int
  tags : List NeuRespTagValue

def writeElems : List NeuJsonElem :=
  [required "node" .str, required "group" .str, required "tag" .str, required "value" .undefine]

def decodeWriteReqJson (casts : CastOps) (json : Json) : Decoded NeuJsonWriteReq := do
  match ← neuJsonDecodeByJson casts (some json) writeElems with
  | [some (.str node), some (.str group), some (.str tag), some value] =>
    .ok { group, node, tag, value }
  | _ => .error .failed

def textTooLong : NeuJsonValue → Bool
  | .str text => NEU_VALUE_SIZE ≤ text.strlen
  | _ => false

def bytesTooLong : NeuJsonValue → Bool
  | .bytes values => NEU_VALUE_SIZE < values.length
  | _ => false

/-- `memcpy` to `value.bytes`, whose length stands behind its bytes. -/
def bytesValue (values : List UInt8) : ValueU :=
  (Block.ofList 136 values).overlay NEU_VALUE_SIZE (Block.leBlock 1 values.length)

/-- The switch over the types, the same in both handlers. It asserts that there are no others, and
has no result where it would write behind a member. -/
def copyJsonValue : NeuJsonValue → Option NeuDvalue
  | .int n => some ⟨.int64, Block.zero.overlay 0 (Block.leBlock 8 (n % 2 ^ 64).toNat), 0⟩
  | .str text => if text.strlen < NEU_VALUE_SIZE then some ⟨.string, strValue text, 0⟩ else none
  | .bytes values =>
    if values.length ≤ NEU_VALUE_SIZE then some ⟨.bytes, bytesValue values, 0⟩ else none
  | .double bits => some ⟨.double, Block.zero.overlay 0 (Block.leBlock 8 bits), 0⟩
  | .bool b => some ⟨.bool, Block.zero.overlay 0 (Block.leBlock 1 b.toNat), 0⟩
  | _ => none

/-- The error of a response, or the command that goes to the adapter. -/
abbrev Handled (α : Type) := Option (Except Int α)

def writeTagCmd (req : NeuJsonWriteReq) : Option NeuReqWriteTag := do
  return { driver := ← strcpy _ req.node, group := ← strcpy _ req.group,
           tag := ← strcpy _ req.tag, value := ← copyJsonValue req.value }

def handleWrite (req : NeuJsonWriteReq) : Handled NeuReqWriteTag :=
  if textTooLong req.value then some (.error NEU_ERR_STRING_TOO_LONG)
  else if bytesTooLong req.value then some (.error NEU_ERR_STRING_TOO_LONG)
  else (writeTagCmd req).map .ok

def copyTag (elem : NeuJsonWriteTagsElem) : Option NeuRespTagValue := do
  return { tag := ← strcpy _ (← elem.tag), value := ← copyJsonValue elem.value }

def writeTagsCmd (req : NeuJsonWriteTagsReq) (tags : List NeuJsonWriteTagsElem) :
    Option NeuReqWriteTags := do
  return { driver := ← strcpy _ req.node, group := ← strcpy _ req.group, nTag := req.nTag,
           tags := ← tags.mapM copyTag }

def handleWriteTags (req : NeuJsonWriteTagsReq) : Handled NeuReqWriteTags :=
  match req.tags with
  | none => none
  | some tags =>
    if tags.any fun elem => textTooLong elem.value then some (.error NEU_ERR_STRING_TOO_LONG)
    else (writeTagsCmd req tags).map .ok

/- What the handlers have to guard. -/

def WriteRejected {α : Type} (handled : Handled α) : Prop := ∃ error, handled = some (.error error)

def NamesFit (node group : CStr) : Prop :=
  node.strlen < NEU_NODE_NAME_LEN ∧ group.strlen < NEU_GROUP_NAME_LEN

def WrittenTagFits (tag : CStr) : Prop := tag.strlen < NEU_TAG_NAME_LEN

def ValueFits : NeuJsonValue → Prop
  | .str text => text.strlen < NEU_VALUE_SIZE
  | .bytes values => values.length ≤ NEU_VALUE_SIZE
  | _ => True

/-- The request is rejected, or a command is built with room for all that is copied. -/
def GuardsWrite (req : NeuJsonWriteReq) : Prop :=
  WriteRejected (handleWrite req) ∨ (∃ cmd, handleWrite req = some (.ok cmd)) ∧
    NamesFit req.node req.group ∧ WrittenTagFits req.tag ∧ ValueFits req.value

def batchTags (req : NeuJsonWriteTagsReq) : List NeuJsonWriteTagsElem := req.tags.getD []

def GuardsWriteTags (req : NeuJsonWriteTagsReq) : Prop :=
  WriteRejected (handleWriteTags req) ∨ (∃ cmd, handleWriteTags req = some (.ok cmd)) ∧
    NamesFit req.node req.group ∧
      ∀ elem ∈ batchTags req, (∃ tag, elem.tag = some tag ∧ WrittenTagFits tag) ∧ ValueFits elem.value

/-- The batch is accepted if and only if each of its values is when it is sent alone. -/
def AcceptsAlike (req : NeuJsonWriteTagsReq) : Prop :=
  ¬ WriteRejected (handleWriteTags req) ↔ ∀ elem ∈ batchTags req, ∀ tag, elem.tag = some tag →
    ¬ WriteRejected (handleWrite ⟨req.group, req.node, tag, elem.value⟩)

def NeuJsonValue.switched : NeuJsonValue → Bool
  | .int _ | .str _ | .bytes _ | .double _ | .bool _ => true
  | _ => false

section
variable {casts : CastOps} {item json : Json} {value : NeuJsonValue} {req : NeuJsonWriteReq}
  {elem : NeuJsonWriteTagsElem} {reqs : NeuJsonWriteTagsReq} {tags : List NeuJsonWriteTagsElem}

theorem decoded_switched
    (ok : decodeObject casts item (required "value" .undefine) = .ok (some value)) :
    value.switched = true := by
  rw [decodeObject, required_name, elemJson_named] at ok
  cases there : jsonObjectGet (some item) "value" with
  | none =>
    rw [there] at ok
    cases ok
  | some ob =>
    rw [there] at ok
    cases ob with
    | array items =>
      dsimp only [required_type] at ok
      cases decoded : decodeAs casts (.array items) (resolved .undefine (.array items)) with
      | error e =>
        rw [decoded] at ok
        cases ok
      | ok given =>
        obtain ⟨values, rfl⟩ := decodeAs_array_ok decoded
        rw [decoded] at ok
        cases ok
        rfl
    | object members => cases ok
    | null => cases ok
    | _ =>
      cases ok
      rfl

theorem strcpy_iff {size : Nat} {src : CStr} :
    (∃ field, strcpy size src = some field) ↔ src.strlen < size := by
  unfold strcpy
  split
  · next fits => exact iff_of_true ⟨_, rfl⟩ fits
  · next long => exact iff_of_false nofun long

theorem valueFits_iff : ValueFits value ↔ textTooLong value = false ∧ bytesTooLong value = false := by
  cases value with
  | str text => simp [ValueFits, textTooLong, bytesTooLong]
  | bytes values => simp [ValueFits, textTooLong, bytesTooLong]
  | _ => exact iff_of_true trivial ⟨rfl, rfl⟩

theorem copyJsonValue_iff (switched : value.switched = true) :
    (∃ copied, copyJsonValue value = some copied) ↔ ValueFits value := by
  cases value with
  | str text =>
    rw [copyJsonValue, ValueFits]
    split
    · next fits => exact iff_of_true ⟨_, rfl⟩ fits
    · next long => exact iff_of_false nofun long
  | bytes values =>
    rw [copyJsonValue, ValueFits]
    split
    · next fits => exact iff_of_true ⟨_, rfl⟩ fits
    · next long => exact iff_of_false nofun long
  | undefine | bit | float | object => cases switched
  | int | double | bool => exact iff_of_true ⟨_, rfl⟩ trivial

theorem writeTagCmd_iff (switched : req.value.switched = true) :
    (∃ cmd, writeTagCmd req = some cmd) ↔
      NamesFit req.node req.group ∧ WrittenTagFits req.tag ∧ ValueFits req.value := by
  rw [NamesFit, WrittenTagFits, ← copyJsonValue_iff switched, ← strcpy_iff, ← strcpy_iff,
    ← strcpy_iff, writeTagCmd]
  cases strcpy NEU_NODE_NAME_LEN req.node <;> cases strcpy NEU_GROUP_NAME_LEN req.group <;>
    cases strcpy NEU_TAG_NAME_LEN req.tag <;> cases copyJsonValue req.value <;> simp

theorem copyTag_iff (switched : elem.value.switched = true) :
    (∃ copied, copyTag elem = some copied) ↔
      (∃ tag, elem.tag = some tag ∧ WrittenTagFits tag) ∧ ValueFits elem.value := by
  rw [← copyJsonValue_iff switched, copyTag]
  cases elem.tag with
  | none => simp
  | some tag =>
    simp only [Option.some.injEq, exists_eq_left', WrittenTagFits, ← strcpy_iff, Option.bind_eq_bind,
      Option.bind_some]
    cases strcpy NEU_TAG_NAME_LEN tag <;> cases copyJsonValue elem.value <;> simp

theorem writeTagsCmd_iff (switched : ∀ elem ∈ tags, elem.value.switched = true) :
    (∃ cmd, writeTagsCmd reqs tags = some cmd) ↔ NamesFit reqs.node reqs.group ∧
      ∀ elem ∈ tags, (∃ tag, elem.tag = some tag ∧ WrittenTagFits tag) ∧ ValueFits elem.value := by
  have each : (∃ copied, tags.mapM copyTag = some copied) ↔
      ∀ elem ∈ tags, (∃ tag, elem.tag = some tag ∧ WrittenTagFits tag) ∧ ValueFits elem.value := by
    constructor
    · rintro ⟨copied, ran⟩ elem inside
      exact (copyTag_iff (switched elem inside)).1 (mapM_defined ran inside)
    · intro fit
      exact mapM_total fun elem inside => (copyTag_iff (switched elem inside)).2 (fit elem inside)
  rw [NamesFit, ← each, ← strcpy_iff, ← strcpy_iff, writeTagsCmd]
  cases strcpy NEU_NODE_NAME_LEN reqs.node <;> cases strcpy NEU_GROUP_NAME_LEN reqs.group <;>
    cases tags.mapM copyTag <;> simp

/- What each handler rejects. -/

theorem handleWrite_rejected : WriteRejected (handleWrite req) ↔
    textTooLong req.value = true ∨ bytesTooLong req.value = true := by
  unfold WriteRejected handleWrite
  cases textTooLong req.value with
  | true => simp
  | false =>
    cases bytesTooLong req.value with
    | true => simp
    | false => cases writeTagCmd req <;> simp

theorem handleWriteTags_rejected (given : reqs.tags = some tags) :
    WriteRejected (handleWriteTags reqs) ↔ ∃ elem ∈ tags, textTooLong elem.value = true := by
  unfold WriteRejected handleWriteTags
  rw [given, ← List.any_eq_true]
  dsimp only
  cases tags.any fun elem => textTooLong elem.value with
  | true => simp
  | false => cases writeTagsCmd reqs tags <;> simp

theorem guardsWrite_iff (switched : req.value.switched = true) : GuardsWrite req ↔
    (textTooLong req.value = true ∨ bytesTooLong req.value = true) ∨
      NamesFit req.node req.group ∧ WrittenTagFits req.tag := by
  rw [GuardsWrite, handleWrite_rejected]
  by_cases long : textTooLong req.value = true ∨ bytesTooLong req.value = true
  · exact iff_of_true (.inl long) (.inl long)
  · rw [or_iff_right long, or_iff_right long]
    have short : textTooLong req.value = false ∧ bytesTooLong req.value = false := by simpa using long
    have fits : ValueFits req.value := valueFits_iff.2 short
    have builds : (∃ cmd, handleWrite req = some (.ok cmd)) ↔ ∃ cmd, writeTagCmd req = some cmd := by
      rw [handleWrite, short.1, short.2]
      cases writeTagCmd req <;> simp
    rw [builds, writeTagCmd_iff switched]
    simp [fits]

theorem guardsWriteTags_iff (given : reqs.tags = some tags)
    (switched : ∀ elem ∈ tags, elem.value.switched = true)
    (named : ∀ elem ∈ tags, ∃ tag, elem.tag = some tag) : GuardsWriteTags reqs ↔
      (∃ elem ∈ tags, textTooLong elem.value = true) ∨ NamesFit reqs.node reqs.group ∧
        ∀ elem ∈ tags, bytesTooLong elem.value = false ∧ ∀ tag, elem.tag = some tag →
            WrittenTagFits tag := by
  have are : batchTags reqs = tags := by rw [batchTags, given, Option.getD_some]
  rw [GuardsWriteTags, handleWriteTags_rejected given, are]
  by_cases long : ∃ elem ∈ tags, textTooLong elem.value = true
  · exact iff_of_true (.inl long) (.inl long)
  · rw [or_iff_right long, or_iff_right long]
    have short : ∀ elem ∈ tags, textTooLong elem.value = false := by simpa using long
    have builds : (∃ cmd, handleWriteTags reqs = some (.ok cmd)) ↔
        ∃ cmd, writeTagsCmd reqs tags = some cmd := by
      have none : (tags.any fun elem => textTooLong elem.value) = false := by simpa using short
      rw [handleWriteTags, given]
      dsimp only
      rw [none]
      cases writeTagsCmd reqs tags <;> simp
    rw [builds, writeTagsCmd_iff switched, and_self_iff]
    refine and_congr_right fun _ => forall₂_congr fun elem inside => ?_
    rw [valueFits_iff]
    obtain ⟨tag, is⟩ := named elem inside
    simp [is, short elem inside, and_comm]

theorem acceptsAlike_iff (given : reqs.tags = some tags)
    (named : ∀ elem ∈ tags, ∃ tag, elem.tag = some tag) : AcceptsAlike reqs ↔
      (∃ elem ∈ tags, textTooLong elem.value = true) ∨
        ∀ elem ∈ tags, bytesTooLong elem.value = false := by
  have are : batchTags reqs = tags := by rw [batchTags, given, Option.getD_some]
  have alone : (∀ elem ∈ tags, ∀ tag, elem.tag = some tag →
      ¬ WriteRejected (handleWrite ⟨reqs.group, reqs.node, tag, elem.value⟩)) ↔
      ∀ elem ∈ tags, textTooLong elem.value = false ∧ bytesTooLong elem.value = false := by
    refine forall₂_congr fun elem inside => ?_
    obtain ⟨tag, is⟩ := named elem inside
    simp [is, handleWrite_rejected]
  rw [AcceptsAlike, handleWriteTags_rejected given, are, alone]
  by_cases long : ∃ elem ∈ tags, textTooLong elem.value = true
  · obtain ⟨elem, inside, text⟩ := long
    refine iff_of_true (iff_of_false (fun none => none ⟨elem, inside, text⟩) fun all => ?_)
      (.inl ⟨elem, inside, text⟩)
    cases text.symm.trans (all elem inside).1
  · have short : ∀ elem ∈ tags, textTooLong elem.value = false := by simpa using long
    rw [or_iff_right long, iff_true_left long]
    exact forall₂_congr fun elem inside => and_iff_right (short elem inside)

/- What the decoders hand to them. -/

theorem decodeWriteReq_switched (ok : decodeWriteReqJson casts json = .ok req) :
    req.value.switched = true := by
  rw [decodeWriteReqJson] at ok
  obtain ⟨values, decoded, ok⟩ := bind_ok ok
  split at ok
  · next node group tag value =>
    cases ok
    rw [neuJsonDecodeByJson, writeElems] at decoded
    simp only [List.mapM_cons, List.mapM_nil, pure_bind, bind_assoc] at decoded
    obtain ⟨_, _, decoded⟩ := bind_ok decoded
    obtain ⟨_, _, decoded⟩ := bind_ok decoded
    obtain ⟨_, _, decoded⟩ := bind_ok decoded
    obtain ⟨_, last, decoded⟩ := bind_ok decoded
    cases decoded
    exact decoded_switched last
  · cases ok

theorem decodeWriteTags_asks {passes : Nat}
    (ok : decodeWriteTagsReqJson casts passes json = some (.ok reqs)) :
    ∃ tags, reqs.tags = some tags ∧ ∀ elem ∈ tags, ∃ item, AsksWrite casts item elem := by
  cases request_ends casts json with
  | lacking ran =>
    cases ok.symm.trans (decodeWriteTags_mono (decodeWriteTags_error ran) (Nat.zero_le passes))
  | textless ran =>
    cases ok.symm.trans (decodeWriteTags_mono (decodeWriteTags_error ran) (Nat.zero_le passes))
  | given node group object request =>
    by_cases few : neuJsonDecodeArraySizeByJson json "tags" ≤ 0
    · rw [decodeWriteTags_size request, if_pos few] at ok
      cases ok
    · obtain ⟨items, rfl⟩ : ∃ items, object = .array items := by
        rw [neuJsonDecodeArraySizeByJson, request.tags] at few
        split at few
        · next items same => exact ⟨items, Option.some.inj same⟩
        · exact absurd (by decide) few
      rw [neuJsonDecodeArraySizeByJson, request.tags] at few
      obtain ⟨n, count⟩ := Int.eq_ofNat_of_zero_le (Int.le_of_lt (Int.not_le.1 few))
      have within : 0 < n ∧ n ≤ items.length := by
        dsimp only at few count
        rw [Int.bmod_def] at few count
        omega
      have ran := @decodeWriteTags_array casts _ _ _ _ request _ count within.1 within.2
      have long := decodeWriteTags_mono ok (Nat.le_max_left passes (n + 1))
      have long' := decodeWriteTags_mono ran (Nat.le_max_right passes (n + 1))
      have same := Option.some.inj (long.symm.trans long')
      cases decoded : (items.take n).mapM (decodeEntry casts) with
      | none =>
        rw [decoded] at same
        cases same
      | some elems =>
        rw [decoded] at same
        cases same
        refine ⟨elems, rfl, fun elem inside => ?_⟩
        obtain ⟨item, _, entry⟩ := mapM_origin decoded inside
        exact ⟨item, asksWrite_iff.2 entry⟩

theorem write_limits {passes : Nat} {batch : Json} (single : decodeWriteReqJson casts json = .ok req)
    (several : decodeWriteTagsReqJson casts passes batch = some (.ok reqs)) :
    (GuardsWrite req ↔ (textTooLong req.value = true ∨ bytesTooLong req.value = true) ∨
      NamesFit req.node req.group ∧ WrittenTagFits req.tag) ∧
    (GuardsWriteTags reqs ↔ (∃ elem ∈ batchTags reqs, textTooLong elem.value = true) ∨
      NamesFit reqs.node reqs.group ∧ ∀ elem ∈ batchTags reqs, bytesTooLong elem.value = false ∧
        ∀ tag, elem.tag = some tag → WrittenTagFits tag) ∧
    (AcceptsAlike reqs ↔ (∃ elem ∈ batchTags reqs, textTooLong elem.value = true) ∨
      ∀ elem ∈ batchTags reqs, bytesTooLong elem.value = false) := by
  obtain ⟨tags, given, asks⟩ := decodeWriteTags_asks several
  have are : batchTags reqs = tags := by rw [batchTags, given, Option.getD_some]
  have switched : ∀ elem ∈ tags, elem.value.switched = true := fun elem inside =>
    let ⟨_, _, _, _, value⟩ := asks elem inside
    decoded_switched value
  have named : ∀ elem ∈ tags, ∃ tag, elem.tag = some tag := fun elem inside =>
    let ⟨_, tag, _, named, _⟩ := asks elem inside
    ⟨tag, named⟩
  rw [are]
  exact ⟨guardsWrite_iff (decodeWriteReq_switched single),
    guardsWriteTags_iff given switched named, acceptsAlike_iff given named⟩

end

def writeOf (value : Json) : Json :=
  .object [("node", .string (.lit "n")), ("group", .string (.lit "g")), ("tag", .string (.lit "t")),
    ("value", value)]

def jsonEntry (value : Json) : Json := .object [("tag", .string (.lit "t")), ("value", value)]

def batchOf (values : List Json) : Json :=
  .object [("node", .string (.lit "n")), ("group", .string (.lit "g")),
    ("tags", .array (values.map jsonEntry))]

def decodedBatch (values : List NeuJsonValue) : NeuJsonWriteTagsReq :=
  ⟨.lit "g", .lit "n", values.length, some (values.map fun value => ⟨some (.lit "t"), value⟩)⟩

def DecodesEntry (value : Json) (decoded : NeuJsonValue) : Prop :=
  decodeEntry noCasts (jsonEntry value) = some ⟨some (.lit "t"), decoded⟩

theorem batchOf_decoded {values : List Json} {decoded : List NeuJsonValue}
    (entries : List.Forall₂ DecodesEntry values decoded) (filled : 0 < values.length)
    (few : values.length < 2 ^ 31) :
    decodeWriteTagsReqJson noCasts (values.length + 1) (batchOf values) =
      some (.ok (decodedBatch decoded)) := by
  have request : Request (batchOf values) (.lit "n") (.lit "g") (.array (values.map jsonEntry)) :=
    ⟨rfl, rfl, rfl⟩
  have count : ((values.map jsonEntry).length : Int).bmod (2 ^ 32) = values.length := by
    rw [List.length_map, Int.bmod_def]
    omega
  have ran := @decodeWriteTags_array noCasts _ _ _ _ request _ count filled
    (List.length_map jsonEntry).ge
  have all : ((values.map jsonEntry).take values.length).mapM (decodeEntry noCasts) =
      some (decoded.map fun value => ⟨some (.lit "t"), value⟩) := by
    rw [List.take_of_length_le (List.length_map jsonEntry).le, mapM_eq_some_iff, List.map_map,
      List.map_map]
    clear request count ran filled few
    induction entries with
    | nil => rfl
    | cons first _ ih => exact List.cons_eq_cons.2 ⟨first, ih⟩
  rw [all] at ran
  rw [decodedBatch, ← entries.length_eq]
  exact ran

theorem textEntry (text : CStr) : DecodesEntry (.string text) (.str text) := rfl

theorem bytesEntry {values : List UInt8} (short : values.length < 256) :
    DecodesEntry (.array (values.map fun b => .integer b.toNat)) (.bytes values) := by
  refine asksWrite_iff.1 ⟨.lit "t", rfl, rfl, ?_⟩
  rw [decodeObject_array noCasts rfl (.inr rfl), decodeBytes_encoded short]
  rfl

def fullText : CStr := ⟨List.replicate 127 'x', by simp⟩

def sevenBytes (n : Nat) : List UInt8 := List.replicate n 7

theorem sevenBytes_long (n : Nat) :
    bytesTooLong (.bytes (sevenBytes n)) = decide (NEU_VALUE_SIZE < n) := by
  rw [bytesTooLong, sevenBytes, List.length_replicate]

theorem sevenBytes_entry {n : Nat} (short : n < 256) :
    DecodesEntry (.array ((sevenBytes n).map fun b => .integer b.toNat)) (.bytes (sevenBytes n)) :=
  bytesEntry (List.length_replicate.trans_lt short)

theorem write_limits_one :
    GuardsWrite ⟨.lit "g", .lit "n", .lit "t", .str fullText⟩ ∧
      GuardsWriteTags (decodedBatch [.str fullText, .bytes (sevenBytes 128)]) ∧
      AcceptsAlike (decodedBatch [.str fullText, .bytes (sevenBytes 128)]) := by
  obtain ⟨single, several, alike⟩ := @write_limits noCasts (writeOf (.string fullText)) _ _ _
    (batchOf [.string fullText, .array ((sevenBytes 128).map fun b => .integer b.toNat)]) rfl
    (batchOf_decoded (.cons (textEntry fullText) (.cons (sevenBytes_entry (by decide)) .nil))
      (by decide) (by decide))
  have names : NamesFit (.lit "n") (.lit "g") := by
    constructor
    · decide
    · decide
  have tag : WrittenTagFits (.lit "t") := by
    unfold WrittenTagFits
    decide
  have fits : ∀ elem ∈ batchTags (decodedBatch [.str fullText, .bytes (sevenBytes 128)]),
      bytesTooLong elem.value = false ∧ ∀ tag, elem.tag = some tag → WrittenTagFits tag := by
    intro elem inside
    rcases List.mem_pair.1 inside with rfl | rfl
    · exact ⟨rfl, fun _ named => Option.some.inj named ▸ tag⟩
    · exact ⟨sevenBytes_long 128, fun _ named => Option.some.inj named ▸ tag⟩
  exact ⟨single.2 (.inr ⟨names, tag⟩), several.2 (.inr ⟨names, fits⟩),
    alike.2 (.inr fun elem inside => (fits elem inside).1)⟩

/-- 129 bytes, refused alone and written behind the value in a batch. -/
theorem write_limits_bytes :
    decodeWriteTagsReqJson noCasts 2
        (batchOf [.array ((sevenBytes 129).map fun b => .integer b.toNat)]) =
      some (.ok (decodedBatch [.bytes (sevenBytes 129)])) ∧
    ¬ GuardsWriteTags (decodedBatch [.bytes (sevenBytes 129)]) ∧
      ¬ AcceptsAlike (decodedBatch [.bytes (sevenBytes 129)]) := by
  have long : bytesTooLong (.bytes (sevenBytes 129)) = true := sevenBytes_long 129
  have given : (decodedBatch [.bytes (sevenBytes 129)]).tags =
      some [⟨some (.lit "t"), .bytes (sevenBytes 129)⟩] := rfl
  have text : ¬ ∃ elem ∈ [(⟨some (.lit "t"), .bytes (sevenBytes 129)⟩ : NeuJsonWriteTagsElem)],
      textTooLong elem.value = true := by simp [textTooLong]
  refine ⟨batchOf_decoded (.cons (sevenBytes_entry (by decide)) .nil) (by decide) (by decide), ?_, ?_⟩
  · rw [guardsWriteTags_iff given (by simp [NeuJsonValue.switched]) (by simp), or_iff_right text]
    simp [long]
  · rw [acceptsAlike_iff given (by simp), or_iff_right text]
    simp [long]

end Cpm
