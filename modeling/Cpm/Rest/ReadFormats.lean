import Cpm.Rest.ReadResp

/-! The two documents that a read response is encoded as, from `neu_json_rw.c`: an array with one
object for each tag, and three objects whose members are named after the tags. -/
namespace Cpm

open Lib

structure RespObjects where
  values : Json
  errors : Json
  metas : Json

section
variable (j : Jansson) (casts : CastOps)

def metaObject (metas : List NeuJsonTagMeta) : Json :=
  metas.foldl (fun object entry => neuJsonEncodeField j casts object [(.given entry.name, entry.value)])
    (.object [])

def respStep (objects : RespObjects) (tag : NeuJsonReadRespTag) : RespObjects :=
  let objects :=
    if tag.error = 0 then
      { objects with
        values := neuJsonEncodeField j casts objects.values [(.given tag.name, tag.value)] }
    else
      { objects with
        errors := neuJsonEncodeField j casts objects.errors [(.given tag.name, .int tag.error)] }
  if 0 < tag.metas.length then
    { objects with
      metas := neuJsonEncodeField j casts objects.metas
        [(.given tag.name, .object (metaObject j casts tag.metas))] }
  else objects

def neuJsonEncodeReadResp1 (object : Json) (tags : List NeuJsonReadRespTag) : Json :=
  let objects := tags.foldl (respStep j casts) ⟨.object [], .object [], .object []⟩
  neuJsonEncodeField j casts object
    [("values", .object objects.values), ("errors", .object objects.errors),
      ("metas", .object objects.metas)]

end

/- What is read back. -/

inductive Reading where
  | value (json : Json)
  | error (json : Json)

abbrev TagReading := Reading × (String → Option Json)

def reserved (key : String) : Bool := key = "name" || key = "value" || key = "error"

/-- The members of one object of the array. The metas are those with other names. -/
def readObject (object : Json) : Option TagReading :=
  let metas key := if reserved key then none else jsonObjectGet (some object) key
  match jsonObjectGet (some object) "error", jsonObjectGet (some object) "value" with
  | some error, _ => some (.error error, metas)
  | none, some value => some (.value value, metas)
  | none, none => none

def readTags (document : Json) (name : CStr) : Option TagReading :=
  match jsonObjectGet (some document) "tags" with
  | some (.array objects) =>
    (objects.find? fun object => jsonStringValue (jsonObjectGet (some object) "name") = some name).bind
      readObject
  | _ => none

def partMember (document : Json) (part : String) (name : CStr) : Option Json :=
  jsonObjectGet (jsonObjectGet (some document) part) (jsonKey name)

def readParts (document : Json) (name : CStr) : Option TagReading :=
  let metas key := jsonObjectGet (partMember document "metas" name) key
  match partMember document "values" name, partMember document "errors" name with
  | some value, none => some (.value value, metas)
  | none, some error => some (.error error, metas)
  | _, _ => none

/-- A tag that jansson can represent. No more metas are counted than the array of a tag holds. -/
structure Legible (j : Jansson) (casts : CastOps) (tag : NeuJsonReadRespTag) : Prop where
  name : j.utf8 tag.name = true
  value : tag.error = 0 → (elementJson j casts tag.value).isSome = true
  metas : ∀ entry ∈ tag.metas, j.utf8 entry.name = true ∧
    (elementJson j casts entry.value).isSome = true ∧ reserved (jsonKey entry.name) = false
  distinct : (tag.metas.map NeuJsonTagMeta.name).Nodup
  counted : tag.metas.length ≤ NEU_TAG_META_SIZE

/-- The tag is in one of the objects, and among the metas if it has some. -/
def InOnePart (document : Json) (tag : NeuJsonReadRespTag) : Prop :=
  ((partMember document "values" tag.name).isSome = true ∧ partMember document "errors" tag.name = none ∨
    partMember document "values" tag.name = none ∧ (partMember document "errors" tag.name).isSome = true) ∧
  ((partMember document "metas" tag.name).isSome = true ↔ tag.metas ≠ [])

def tagReading (j : Jansson) (casts : CastOps) (tag : NeuJsonReadRespTag) : Option TagReading :=
  let metas key := (tag.metas.find? fun entry => jsonKey entry.name = key).bind fun entry =>
    elementJson j casts entry.value
  if tag.error = 0 then (elementJson j casts tag.value).map fun value => (.value value, metas)
  else some (.error (.integer tag.error), metas)

def respReading (j : Jansson) (casts : CastOps) (tags : List NeuJsonReadRespTag) (name : CStr) :
    Option TagReading :=
  (tags.find? fun tag => tag.name = name).bind (tagReading j casts)

section
variable {j : Jansson} {casts : CastOps}

/-- Where no key comes twice, the last element with a key is the first. -/
theorem findSome_distinct {α : Type} {key : String} (f : α → Option Json) {elements : List (String × α)}
    (distinct : (elements.map Prod.fst).Nodup) :
    (elements.reverse.findSome? fun element => if element.1 = key then f element.2 else none) =
      elements.findSome? fun element => if element.1 = key then f element.2 else none := by
  induction elements with
  | nil => rfl
  | cons element rest ih =>
    obtain ⟨others, nodup⟩ := List.nodup_cons.1 distinct
    rw [List.reverse_cons, List.findSome?_append, ih nodup, List.findSome?_cons, List.findSome?_cons,
      List.findSome?_nil]
    by_cases here : element.1 = key
    · have none : (rest.findSome? fun element => if element.1 = key then f element.2 else none) =
        none := by
        refine List.findSome?_eq_none_iff.2 fun other inside => if_neg fun same => ?_
        exact others (here.trans same.symm ▸ List.mem_map_of_mem inside)
      rw [none, if_pos here]
      cases f element.2 <;> rfl
    · rw [if_neg here]
      cases rest.findSome? fun element => if element.1 = key then f element.2 else none <;> rfl

theorem findSome_items {α : Type} {keys : α → String} {kept : α → Bool} {value : α → NeuJsonValue}
    {items : List α} (distinct : (items.map keys).Nodup) (key : String) :
    (((items.filter kept).map fun item => (keys item, value item)).reverse.findSome? fun element =>
        if element.1 = key then elementJson j casts element.2 else none) =
      (items.find? fun item => keys item = key).bind fun item =>
        if kept item then elementJson j casts (value item) else none := by
  have nodup : (((items.filter kept).map fun item => (keys item, value item)).map Prod.fst).Nodup := by
    rw [List.map_map]
    exact distinct.sublist (List.filter_sublist.map _)
  rw [findSome_distinct (elementJson j casts) nodup]
  clear nodup
  induction items with
  | nil => rfl
  | cons item rest ih =>
    obtain ⟨others, further⟩ := List.nodup_cons.1 distinct
    rw [List.find?_cons, List.filter_cons]
    by_cases here : keys item = key
    · have none : (((rest.filter kept).map fun item => (keys item, value item)).findSome? fun element =>
          if element.1 = key then elementJson j casts element.2 else none) = none := by
        refine List.findSome?_eq_none_iff.2 fun element inside => if_neg fun same => ?_
        obtain ⟨other, there, rfl⟩ := List.mem_map.1 inside
        exact others (here.trans same.symm ▸ List.mem_map_of_mem (List.mem_of_mem_filter there))
      cases keeps : kept item with
      | true =>
        rw [if_pos rfl, List.map_cons, List.findSome?_cons, none, if_pos here]
        cases written : elementJson j casts (value item) <;> simp [here, keeps, written]
      | false => simp [none, here, keeps]
    · rw [decide_eq_false here, ← ih further]
      cases kept item with
      | true => rw [if_pos rfl, List.map_cons, List.findSome?_cons, if_neg here]
      | false => rw [if_neg Bool.false_ne_true]

theorem encode_items {α : Type} (keys : α → String) (kept : α → Bool) (value : α → NeuJsonValue)
    (items : List α) (object : Json) :
    items.foldl (fun object item => neuJsonEncodeField j casts object
        (own (if kept item then [(keys item, value item)] else []))) object =
      neuJsonEncodeField j casts object
        (own ((items.filter kept).map fun item => (keys item, value item))) := by
  induction items generalizing object with
  | nil => rfl
  | cons item rest ih =>
    rw [List.foldl_cons, ih, List.filter_cons]
    cases kept item <;> rfl

theorem encodeField_named (object : Json) (name : CStr) (value : NeuJsonValue) :
    neuJsonEncodeField j casts object [(.given name, value)] =
      neuJsonEncodeField j casts object (own (if j.utf8 name then [(jsonKey name, value)] else [])) := by
  rw [encodeField_taken]
  cases legible : j.utf8 name <;> simp [taken, ElemName.key, legible]

theorem items_lookup {α : Type} {keys : α → String} (kept : α → Bool) (value : α → NeuJsonValue)
    {items : List α} (distinct : (items.map keys).Nodup) :
    ∃ members, items.foldl (fun object item => neuJsonEncodeField j casts object
        (own (if kept item then [(keys item, value item)] else []))) (.object []) = .object members ∧
      ∀ key, members.lookup key = (items.find? fun item => keys item = key).bind fun item =>
        if kept item then elementJson j casts (value item) else none := by
  rw [encode_items]
  obtain ⟨members, built, found⟩ := encoded_lookup j casts
    ((items.filter kept).map fun item => (keys item, value item)) []
  refine ⟨members, built, fun key => ?_⟩
  rw [found, findSome_items distinct, List.lookup_nil, Option.or_none]

/- The three objects. -/

def partStep (j : Jansson) (casts : CastOps) (kept : NeuJsonReadRespTag → Bool)
    (value : NeuJsonReadRespTag → NeuJsonValue) (object : Json) (tag : NeuJsonReadRespTag) : Json :=
  neuJsonEncodeField j casts object
    (own (if kept tag && j.utf8 tag.name then [(jsonKey tag.name, value tag)] else []))

theorem partStep_kept (kept : NeuJsonReadRespTag → Bool) (value : NeuJsonReadRespTag → NeuJsonValue)
    (object : Json) (tag : NeuJsonReadRespTag) : partStep j casts kept value object tag =
      if kept tag then neuJsonEncodeField j casts object [(.given tag.name, value tag)] else object := by
  rw [partStep, encodeField_named]
  cases kept tag <;> rfl

theorem respStep_parts (objects : RespObjects) (tag : NeuJsonReadRespTag) :
    respStep j casts objects tag =
      ⟨partStep j casts (fun tag => tag.error = 0) NeuJsonReadRespTag.value objects.values tag,
        partStep j casts (fun tag => tag.error ≠ 0) (fun tag => .int tag.error) objects.errors tag,
        partStep j casts (fun tag => 0 < tag.metas.length)
          (fun tag => .object (metaObject j casts tag.metas)) objects.metas tag⟩ := by
  simp only [partStep_kept, respStep]
  by_cases error : tag.error = 0 <;> by_cases metas : 0 < tag.metas.length <;> simp [error, metas]

theorem respStep_fold (tags : List NeuJsonReadRespTag) (objects : RespObjects) :
    tags.foldl (respStep j casts) objects =
      ⟨tags.foldl (partStep j casts (fun tag => tag.error = 0) NeuJsonReadRespTag.value) objects.values,
        tags.foldl (partStep j casts (fun tag => tag.error ≠ 0) fun tag => .int tag.error) objects.errors,
        tags.foldl (partStep j casts (fun tag => 0 < tag.metas.length)
          fun tag => .object (metaObject j casts tag.metas)) objects.metas⟩ := by
  induction tags generalizing objects with
  | nil => rfl
  | cons tag rest ih => rw [List.foldl_cons, ih, respStep_parts]; rfl

theorem metaObject_lookup {tag : NeuJsonReadRespTag} (legible : Legible j casts tag) :
    ∃ members, metaObject j casts tag.metas = .object members ∧
      ∀ key, members.lookup key = (tag.metas.find? fun entry => jsonKey entry.name = key).bind
        fun entry => elementJson j casts entry.value := by
  have keys : (tag.metas.map fun entry => jsonKey entry.name).Nodup := by
    have nodup := legible.distinct.map fun _ _ => jsonKey_inj.1
    rwa [List.map_map] at nodup
  obtain ⟨members, built, found⟩ := @items_lookup j casts _ _
    (fun entry : NeuJsonTagMeta => j.utf8 entry.name) NeuJsonTagMeta.value _ keys
  simp only [← encodeField_named] at built
  refine ⟨members, built, fun key => ?_⟩
  rw [found]
  cases here : tag.metas.find? fun entry => jsonKey entry.name = key with
  | none => rfl
  | some entry =>
    have utf8 := (legible.metas entry (List.mem_of_find?_eq_some here)).1
    rw [Option.bind_some, Option.bind_some, if_pos utf8]

section
variable {tags : List NeuJsonReadRespTag} (distinct : (tags.map NeuJsonReadRespTag.name).Nodup)
  (legible : ∀ tag ∈ tags, Legible j casts tag)
include distinct legible

theorem part_lookup (kept : NeuJsonReadRespTag → Bool) (value : NeuJsonReadRespTag → NeuJsonValue) :
    ∃ members, tags.foldl (partStep j casts kept value) (.object []) = .object members ∧
      ∀ name, members.lookup (jsonKey name) = (tags.find? fun tag => tag.name = name).bind fun tag =>
        if kept tag then elementJson j casts (value tag) else none := by
  have keys : (tags.map fun tag => jsonKey tag.name).Nodup := by
    have nodup := distinct.map fun _ _ => jsonKey_inj.1
    rwa [List.map_map] at nodup
  obtain ⟨members, built, found⟩ := @items_lookup j casts _ _
    (fun tag => kept tag && j.utf8 tag.name) value _ keys
  refine ⟨members, built, fun name => ?_⟩
  rw [found]
  simp only [jsonKey_inj]
  cases here : tags.find? fun tag => tag.name = name with
  | none => rfl
  | some tag =>
    have utf8 := (legible tag (List.mem_of_find?_eq_some here)).name
    rw [Option.bind_some, Option.bind_some, utf8, Bool.and_true]

theorem parts_lookup (members : List (String × Json)) (name : CStr) :
    let document := neuJsonEncodeReadResp1 j casts (.object members) tags
    let part kept value := (tags.find? fun tag => tag.name = name).bind fun tag =>
      if kept tag then elementJson j casts (value tag) else none
    partMember document "values" name =
        part (fun tag => decide (tag.error = 0)) NeuJsonReadRespTag.value ∧
      partMember document "errors" name = part (fun tag => decide (tag.error ≠ 0)) (fun tag => .int tag.error) ∧
      partMember document "metas" name = part (fun tag => decide (0 < tag.metas.length))
        (fun tag => .object (metaObject j casts tag.metas)) := by
  intro document part
  obtain ⟨values, valuesAre, valuesFound⟩ := part_lookup distinct legible (fun tag => tag.error = 0)
    NeuJsonReadRespTag.value
  obtain ⟨errors, errorsAre, errorsFound⟩ := part_lookup distinct legible (fun tag => tag.error ≠ 0)
    fun tag => .int tag.error
  obtain ⟨metas, metasAre, metasFound⟩ := part_lookup distinct legible (fun tag => 0 < tag.metas.length)
    fun tag => .object (metaObject j casts tag.metas)
  obtain ⟨after, built, found⟩ := encoded_lookup j casts
    [("values", .object (.object values)), ("errors", .object (.object errors)),
      ("metas", .object (.object metas))] members
  have whole : document = .object after := by
    unfold document neuJsonEncodeReadResp1
    rw [respStep_fold, valuesAre, errorsAre, metasAre]
    exact built
  have member (key : String) : jsonObjectGet (some document) key = after.lookup key := by
    rw [whole]
    rfl
  unfold partMember
  rw [member, member, member, found, found, found]
  exact ⟨valuesFound name, errorsFound name, metasFound name⟩

theorem readParts_reading (members : List (String × Json)) (name : CStr) :
    readParts (neuJsonEncodeReadResp1 j casts (.object members) tags) name =
        respReading j casts tags name := by
  obtain ⟨values, errors, metas⟩ := parts_lookup distinct legible members name
  unfold readParts respReading
  rw [values, errors, metas]
  cases here : tags.find? fun tag => tag.name = name with
  | none => rfl
  | some tag =>
    have legible := legible tag (List.mem_of_find?_eq_some here)
    obtain ⟨entries, built, found⟩ := metaObject_lookup legible
    have same : (fun key => jsonObjectGet (if decide (0 < tag.metas.length) = true then
        elementJson j casts (.object (metaObject j casts tag.metas)) else none) key) =
        fun key => (tag.metas.find? fun entry => jsonKey entry.name = key).bind fun entry =>
          elementJson j casts entry.value := by
      funext key
      by_cases some' : 0 < tag.metas.length
      · rw [decide_eq_true some', if_pos rfl, elementJson, built, ← found key]
        rfl
      · have empty : tag.metas = [] := List.eq_nil_of_length_eq_zero (by omega)
        rw [empty]
        rfl
    simp only [Option.bind_some, same, tagReading]
    by_cases error : tag.error = 0
    · obtain ⟨value, written⟩ := Option.isSome_iff_exists.1 (legible.value error)
      simp [error, written]
    · simp [error, elementJson]

end

/- The objects of the array. -/

theorem findSome_two {α β : Type} (f : α → Option β) (a b : α) :
    [a, b].findSome? f = (f a).or (f b) := by
  rw [List.findSome?_cons, List.findSome?_cons, List.findSome?_nil]
  cases f a <;> cases f b <;> rfl

theorem reserved_free {tag : NeuJsonReadRespTag} (legible : Legible j casts tag) (key : String)
    (is : reserved key = true) :
    (tag.metas.find? fun entry => jsonKey entry.name = key) = none := by
  refine List.find?_eq_none.2 fun entry inside same => ?_
  have free := (legible.metas entry inside).2.2
  rw [of_decide_eq_true same, is] at free
  cases free

theorem entry_members {tag : NeuJsonReadRespTag} (legible : Legible j casts tag) (key : String) :
    (takenElems j tag).reverse.findSome? (fun element =>
        if element.1 = key then elementJson j casts element.2 else none) =
      ((tag.metas.find? fun entry => jsonKey entry.name = key).bind fun entry =>
        elementJson j casts entry.value).or
        ((if (if tag.error ≠ 0 then "error" else "value") = key then
          (if tag.error ≠ 0 then some (.integer tag.error) else elementJson j casts tag.value) else none).or
          (if "name" = key then some (.string tag.name) else none)) := by
  have keys : (tag.metas.map fun entry => jsonKey entry.name).Nodup := by
    have nodup := legible.distinct.map fun _ _ => jsonKey_inj.1
    rwa [List.map_map] at nodup
  have named : elementJson j casts (.str tag.name) = some (.string tag.name) := if_pos legible.name
  rw [takenElems, List.reverse_cons, List.reverse_cons, List.append_assoc, List.findSome?_append]
  have metas := @findSome_items j casts _ _ (fun entry => j.utf8 entry.name)
    NeuJsonTagMeta.value _ keys key
  rw [metas]
  congr 1
  · cases here : tag.metas.find? fun entry => jsonKey entry.name = key with
    | none => rfl
    | some entry =>
      have utf8 := (legible.metas entry (List.mem_of_find?_eq_some here)).1
      rw [Option.bind_some, Option.bind_some, if_pos utf8]
  · have two : [if tag.error ≠ 0 then ("error", NeuJsonValue.int tag.error) else ("value", tag.value)] ++
          [("name", .str tag.name)] =
        [if tag.error ≠ 0 then ("error", .int tag.error) else ("value", tag.value),
          ("name", .str tag.name)] := rfl
    rw [two, findSome_two, named]
    by_cases error : tag.error = 0
    · rw [if_neg (not_not_intro error), if_neg (not_not_intro error), if_neg (not_not_intro error)]
    · rw [if_pos error, if_pos error, if_pos error, elementJson]

theorem entry_lookup {tag : NeuJsonReadRespTag} (legible : Legible j casts tag) :
    ∃ members, readRespObject j casts tag = .object members ∧
      members.lookup "name" = some (.string tag.name) ∧
      members.lookup "error" = (if tag.error ≠ 0 then some (.integer tag.error) else none) ∧
      members.lookup "value" = (if tag.error = 0 then elementJson j casts tag.value else none) ∧
      ∀ key, reserved key = false → members.lookup key =
        (tag.metas.find? fun entry => jsonKey entry.name = key).bind fun entry =>
          elementJson j casts entry.value := by
  obtain ⟨members, built, found⟩ := readRespObject_lookup j casts tag
  have looked (key : String) := (found key).trans (entry_members legible key)
  refine ⟨members, built, ?_, ?_, ?_, fun key is => ?_⟩
  · rw [looked, reserved_free legible "name" rfl]
    by_cases error : tag.error = 0 <;> simp [error]
  · rw [looked, reserved_free legible "error" rfl]
    by_cases error : tag.error = 0 <;> simp [error]
  · rw [looked, reserved_free legible "value" rfl]
    by_cases error : tag.error = 0 <;> simp [error]
  · have others : "error" ≠ key ∧ "value" ≠ key ∧ "name" ≠ key := by
      refine ⟨?_, ?_, ?_⟩ <;> rintro rfl <;> cases is
    rw [looked, if_neg others.2.2, Option.or_none]
    by_cases error : tag.error = 0
    · rw [if_neg (not_not_intro error), if_neg others.2.1, Option.or_none]
    · rw [if_pos error, if_neg others.1, Option.or_none]

theorem readObject_reading {tag : NeuJsonReadRespTag} (legible : Legible j casts tag) :
    readObject (readRespObject j casts tag) = tagReading j casts tag := by
  obtain ⟨members, built, _, error, value, metas⟩ := entry_lookup legible
  have member (key : String) : jsonObjectGet (some (.object members)) key = members.lookup key := rfl
  have same : (fun key => if reserved key then none else members.lookup key) =
      fun key => (tag.metas.find? fun entry => jsonKey entry.name = key).bind fun entry =>
        elementJson j casts entry.value := by
    funext key
    cases is : reserved key with
    | false => exact metas key is
    | true =>
      have none : (tag.metas.find? fun entry => jsonKey entry.name = key) = none := by
        refine List.find?_eq_none.2 fun entry inside same => ?_
        have free := (legible.metas entry inside).2.2
        rw [of_decide_eq_true same, is] at free
        cases free
      rw [none]
      rfl
  rw [built, readObject, tagReading]
  simp only [member, error, value, same]
  by_cases zero : tag.error = 0
  · obtain ⟨json, written⟩ := Option.isSome_iff_exists.1 (legible.value zero)
    simp [zero, written]
  · simp [zero]

section
variable {tags : List NeuJsonReadRespTag} (legible : ∀ tag ∈ tags, Legible j casts tag)
include legible

theorem find_entry (name : CStr) :
    ((tags.map (readRespObject j casts)).find? fun object =>
        jsonStringValue (jsonObjectGet (some object) "name") = some name) =
      (tags.find? fun tag => tag.name = name).map (readRespObject j casts) := by
  induction tags with
  | nil => rfl
  | cons tag rest ih =>
    obtain ⟨here, further⟩ := List.forall_mem_cons.1 legible
    obtain ⟨members, built, named, _⟩ := entry_lookup here
    have text : jsonStringValue (jsonObjectGet (some (readRespObject j casts tag)) "name") =
        some tag.name := by
      rw [built, jsonObjectGet, named]
      rfl
    rw [List.map_cons, List.find?_cons, List.find?_cons, text, ih further]
    by_cases same : tag.name = name
    · simp [same]
    · simp [same]

theorem readTags_reading (members : List (String × Json)) (name : CStr) :
    readTags (neuJsonEncodeReadResp j casts (.object members) tags) name =
        respReading j casts tags name := by
  obtain ⟨after, built, found⟩ := encoded_lookup j casts
    [("tags", .object (.array (tags.map (readRespObject j casts))))] members
  have array : jsonObjectGet (some (neuJsonEncodeReadResp j casts (.object members) tags)) "tags" =
      some (.array (tags.map (readRespObject j casts))) := by
    have whole : neuJsonEncodeReadResp j casts (.object members) tags = .object after := built
    rw [whole]
    exact found "tags"
  rw [readTags, array, respReading]
  dsimp only
  rw [find_entry legible, Option.bind_map]
  cases here : tags.find? fun tag => tag.name = name with
  | none => rfl
  | some tag => exact readObject_reading (legible tag (List.mem_of_find?_eq_some here))

end

theorem read_formats_agree {tags : List NeuJsonReadRespTag} (members : List (String × Json))
    (distinct : (tags.map NeuJsonReadRespTag.name).Nodup)
    (legible : ∀ tag ∈ tags, Legible j casts tag) :
    (∀ tag ∈ tags, InOnePart (neuJsonEncodeReadResp1 j casts (.object members) tags) tag) ∧
      ∀ name, readTags (neuJsonEncodeReadResp j casts (.object members) tags) name =
          respReading j casts tags name ∧
        readParts (neuJsonEncodeReadResp1 j casts (.object members) tags) name =
          respReading j casts tags name := by
  refine ⟨fun tag inside => ?_, fun name => ⟨readTags_reading legible members name,
    readParts_reading distinct legible members name⟩⟩
  obtain ⟨values, errors, metas⟩ := parts_lookup distinct legible members tag.name
  have here : (tags.find? fun other => other.name = tag.name) = some tag := by
    cases found : tags.find? fun other => other.name = tag.name with
    | none => exact absurd (decide_eq_true rfl) (List.find?_eq_none.1 found tag inside)
    | some other =>
      have same : other.name = tag.name := by simpa using List.find?_some found
      rw [List.inj_on_of_nodup_map distinct (List.mem_of_find?_eq_some found) inside same]
  rw [InOnePart, values, errors, metas, here]
  simp only [Option.bind_some]
  constructor
  · by_cases error : tag.error = 0
    · refine .inl ⟨?_, by simp [error]⟩
      simpa [error] using (legible tag inside).value error
    · exact .inr ⟨by simp [error], by simp [error, elementJson]⟩
  · by_cases metas : tag.metas = []
    · simp [metas]
    · simp [metas, List.length_pos_iff, elementJson]

end

def twoReadings : List NeuJsonReadRespTag :=
  [⟨0, .lit "level", .int 5, 0, [⟨.lit "min", .int 0⟩, ⟨.lit "max", .int 9⟩]⟩,
    ⟨3008, .lit "flow", .undefine, 0, []⟩]

theorem read_formats_agree_two :
    (∀ tag ∈ twoReadings,
      InOnePart (neuJsonEncodeReadResp1 smallJansson noCasts (.object []) twoReadings) tag) ∧
      ∀ name, readTags (neuJsonEncodeReadResp smallJansson noCasts (.object []) twoReadings) name =
          respReading smallJansson noCasts twoReadings name ∧
        readParts (neuJsonEncodeReadResp1 smallJansson noCasts (.object []) twoReadings) name =
          respReading smallJansson noCasts twoReadings name := by
  refine read_formats_agree [] (by decide) fun tag inside => ?_
  simp only [twoReadings, List.mem_cons, List.not_mem_nil, or_false] at inside
  obtain rfl | rfl := inside
  · exact ⟨by decide, fun _ => rfl, by simp [elementJson]; decide, by decide, by decide⟩
  · exact ⟨by decide, fun none => absurd none (by decide),
      fun entry inside => absurd inside List.not_mem_nil, .nil, by decide⟩

end Cpm
