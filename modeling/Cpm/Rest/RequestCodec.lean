import Cpm.Base.Elements
import Cpm.Rest.ElementRoundTrip
import Cpm.Rest.Requests

/-! Which requests and responses of the REST API come back from their documents. -/
namespace Cpm

open Lib Lib.Decode

theorem lookup_head {α : Type} (key name : String) (value : α) (rest : List (String × α)) :
    List.lookup name ((key, value) :: rest) = if name = key then some value else rest.lookup name := by
  by_cases same : name = key
  · rw [if_pos same, same]
    exact List.lookup_cons_self
  · have apart : (name == key) = false := by simpa using same
    rw [if_neg same, List.lookup_cons, apart]

section
variable {j : Jansson} {casts : CastOps}

theorem encodeField_lookup {elements : List (String × NeuJsonValue)}
    (distinct : (elements.map Prod.fst).Nodup) (members : List (String × Json)) :
    ∃ after, neuJsonEncodeField j casts (.object members) (own elements) = .object after ∧
      ∀ name, after.lookup name =
        ((elements.lookup name).bind (elementJson j casts)).or (members.lookup name) := by
  induction elements generalizing members with
  | nil => exact ⟨members, rfl, fun _ => rfl⟩
  | cons element rest ih =>
    obtain ⟨key, value⟩ := element
    rw [List.map_cons, List.nodup_cons] at distinct
    have away : rest.lookup key = none := by
      rw [List.lookup_eq_none_iff]
      intro other inside
      have apart : key ≠ other.1 := by
        rintro rfl
        have again : other.1 ∈ rest.map Prod.fst := List.mem_map_of_mem inside
        exact distinct.1 again
      simpa using apart
    cases encoded : elementJson j casts value with
    | none =>
      obtain ⟨after, built, found⟩ := ih distinct.2 members
      have first : encodeObject j casts (.object members) (.own key, value) = .object members := by
        rw [encodeObject, encoded, jsonObjectSet_none]
      refine ⟨after, ?_, fun name => ?_⟩
      · rw [own_cons, neuJsonEncodeField, List.foldl_cons, first]
        exact built
      · rw [found, lookup_head]
        by_cases same : name = key
        · rw [if_pos same, same, away, Option.bind_some, encoded]
          rfl
        · rw [if_neg same]
    | some json =>
      obtain ⟨after, built, found⟩ := ih distinct.2 (setMember key json members)
      have first : encodeObject j casts (.object members) (.own key, value) =
          .object (setMember key json members) := by
        rw [encodeObject, encoded, jsonObjectSet_own]
      refine ⟨after, ?_, fun name => ?_⟩
      · rw [own_cons, neuJsonEncodeField, List.foldl_cons, first]
        exact built
      · rw [found, lookup_head, lookup_setMember]
        by_cases same : name = key
        · rw [if_pos same, if_pos same, same, away, Option.bind_some, encoded]
          rfl
        · rw [if_neg same, if_neg same]

theorem encodeEntry_get {elements : List (String × NeuJsonValue)}
    (distinct : (elements.map Prod.fst).Nodup) (name : String) :
    jsonObjectGet (some (neuJsonEncodeEntry j casts elements)) name =
      (elements.lookup name).bind (elementJson j casts) := by
  obtain ⟨after, built, found⟩ := @encodeField_lookup j casts _ distinct []
  rw [neuJsonEncodeEntry, built]
  exact (found name).trans Option.or_none

/- One element of an entry, as its decoder finds it. -/

section
variable {elements : List (String × NeuJsonValue)} {name : String}

theorem decodeEntry_str (distinct : (elements.map Prod.fst).Nodup) {text : CStr}
    (given : elements.lookup name = some (.str text)) :
    decodeObject casts (neuJsonEncodeEntry j casts elements) (required name .str) =
      if j.utf8 text then .ok (some (.str text)) else .error .failed := by
  rw [decodeObject_str, encodeEntry_get distinct, given, Option.bind_some, elementJson, jsonString]
  cases j.utf8 text <;> rfl

theorem decodeEntry_int (distinct : (elements.map Prod.fst).Nodup) {n : Int}
    (given : elements.lookup name = some (.int n)) :
    decodeObject casts (neuJsonEncodeEntry j casts elements) (required name .int) =
      .ok (some (.int n)) := by
  rw [decodeObject, required_name, elemJson_named, encodeEntry_get distinct, given]
  rfl

theorem decodeEntry_object (distinct : (elements.map Prod.fst).Nodup) {json : Json}
    (given : elements.lookup name = some (.object json)) :
    decodeObject casts (neuJsonEncodeEntry j casts elements) (required name .object) =
      .ok (some (.object json)) := by
  rw [decodeObject_there, encodeEntry_get distinct, given]
  rfl

end

/- Decoders of flat structures. -/

section
variable {α : Type} {elements : List (String × NeuJsonValue)} {first second third : String}
  {a b c : CStr} {n : Int}

theorem error_ne {value : α} {e : DecodeError} : (.error e : Decoded α) ≠ .ok value := by
  rintro ⟨⟩

theorem ok_ite {good : Prop} [Decidable good] {value : α} {e : DecodeError} :
    (if good then .ok value else .error e : Decoded α) = .ok value ↔ good := by
  split
  · next holds => exact iff_of_true rfl holds
  · next fails => exact iff_of_false error_ne fails

theorem decodeTwo_entry (distinct : (elements.map Prod.fst).Nodup)
    (given : elements.lookup first = some (.str a)) (given' : elements.lookup second = some (.str b))
    (build : CStr → CStr → α) :
    decodeTwo casts first second (neuJsonEncodeEntry j casts elements) build =
      if j.utf8 a ∧ j.utf8 b then .ok (build a b) else .error .failed := by
  rw [decodeTwo, neuJsonDecodeByJson, List.mapM_cons, List.mapM_cons, List.mapM_nil,
    decodeEntry_str distinct given, decodeEntry_str distinct given']
  cases j.utf8 a <;> cases j.utf8 b <;> rfl

theorem decodeTwo_returned (distinct : (elements.map Prod.fst).Nodup)
    (given : elements.lookup first = some (.str a)) (given' : elements.lookup second = some (.str b))
    (build : CStr → CStr → α) :
    decodeTwo casts first second (neuJsonEncodeEntry j casts elements) build = .ok (build a b) ↔
      j.utf8 a = true ∧ j.utf8 b = true := by
  rw [decodeTwo_entry distinct given given', ok_ite]

theorem decodeTwoInt_returned (distinct : (elements.map Prod.fst).Nodup)
    (given : elements.lookup first = some (.str a)) (given' : elements.lookup second = some (.str b))
    (number : elements.lookup third = some (.int n)) (build : CStr → CStr → Int → α) :
    decodeTwoInt casts first second third (neuJsonEncodeEntry j casts elements) build =
      .ok (build a b n) ↔ j.utf8 a = true ∧ j.utf8 b = true := by
  have decoded : decodeTwoInt casts first second third (neuJsonEncodeEntry j casts elements) build =
      if j.utf8 a ∧ j.utf8 b then .ok (build a b n) else .error .failed := by
    rw [decodeTwoInt, neuJsonDecodeByJson, List.mapM_cons, List.mapM_cons, List.mapM_cons,
      List.mapM_nil, decodeEntry_str distinct given, decodeEntry_str distinct given',
      decodeEntry_int distinct number]
    cases j.utf8 a <;> cases j.utf8 b <;> rfl
  rw [decoded, ok_ite]

theorem decodeTwoTags_entry (distinct : (elements.map Prod.fst).Nodup)
    (given : elements.lookup first = some (.str a)) (given' : elements.lookup second = some (.str b))
    {object : Json} (tags : elements.lookup third = some (.object object))
    (build : CStr → CStr → List NeuJsonTag → α) :
    decodeTwoTags casts first second third (neuJsonEncodeEntry j casts elements) build =
      if j.utf8 a ∧ j.utf8 b then do
        let tags ← neuJsonDecodeTagArrayJson casts object
        if tags.length ≤ 0 then .error .failed else return build a b tags
      else .error .failed := by
  rw [decodeTwoTags, neuJsonDecodeByJson, List.mapM_cons, List.mapM_cons, List.mapM_cons,
    List.mapM_nil, decodeEntry_str distinct given, decodeEntry_str distinct given',
    decodeEntry_object distinct tags]
  cases j.utf8 a <;> cases j.utf8 b <;> rfl

end

/- Tags. -/

/-- The values that come back without a type. -/
def ReadsSame (j : Jansson) : NeuJsonValue → Prop
  | .undefine | .int _ | .bool _ => True
  | .str text => j.utf8 text = true
  | .double bits => bits < 2 ^ 64 ∧ Ieee.binary64.special bits = false
  | .bytes values => values.length < 256
  | .bit _ | .float _ | .object _ => False

theorem readBack_same {value : NeuJsonValue} :
    readBack j casts value = .ok value ↔ ReadsSame j value := by
  cases value with
  | undefine | int n => exact iff_of_true rfl trivial
  | bool b => exact iff_of_true (readBack_bool b) trivial
  | str text =>
    rw [readBack_str, ReadsSame]
    cases j.utf8 text <;> simp
  | bit b => exact iff_of_false (by rintro ⟨⟩) id
  | double bits =>
    rw [readBack, elementJson, jsonReal, ReadsSame]
    cases Ieee.binary64.special bits with
    | true => exact iff_of_false (by rintro ⟨⟩) (by simp)
    | false =>
      have back : (UInt64.ofNat bits).toNat = bits % 2 ^ 64 := UInt64.toNat_ofNat'
      simp only [Bool.false_eq_true, if_false, resolved, decodeAs_double, back, and_true,
        Except.ok.injEq, NeuJsonValue.double.injEq]
      exact Nat.mod_eq_iff_lt (by decide)
  | float bits =>
    rw [readBack, elementJson, jsonReal]
    split
    · next none =>
      exact iff_of_false (by rintro ⟨⟩) id
    · next json some =>
      split at some
      · cases some
      · cases some
        exact iff_of_false (by rintro ⟨⟩) id
  | bytes values =>
    have bytes : readBack j casts (.bytes values) =
        decodeBytes (values.map fun b => .integer b.toNat) := rfl
    rw [bytes, ReadsSame]
    by_cases short : values.length < 256
    · exact iff_of_true (decodeBytes_encoded short) short
    · refine iff_of_false ?_ short
      unfold decodeBytes
      rw [List.length_map]
      intro same
      dsimp only at same
      split_ifs at same with empty long
      · cases same
        exact short (by decide)
      · omega
  | object json =>
    refine iff_of_false ?_ id
    cases json with
    | array items =>
      have bytes : readBack j casts (.object (.array items)) = decodeBytes items := rfl
      rw [bytes]
      unfold decodeBytes
      intro same
      dsimp only at same
      split_ifs at same <;> cases same
    | _ => rintro ⟨⟩

structure TagReturned (j : Jansson) (tag : NeuJsonTag) : Prop where
  named : j.utf8 tag.name = true
  addressed : j.utf8 tag.address = true
  described : ∀ text, tag.description = some text → j.utf8 text = true
  small : tag.decimal < 2 ^ 64
  finite : Ieee.binary64.special tag.decimal = false
  value : ReadsSame j tag.value
  checked : neuJsonTagCheckType tag = true

theorem decodeMember {elements : List (String × NeuJsonValue)} {elem : NeuJsonElem} {name : String}
    {value : NeuJsonValue} (distinct : (elements.map Prod.fst).Nodup)
    (asked : elem.name = some name) (given : elements.lookup name = some value) :
    decodeObject casts (neuJsonEncodeEntry j casts elements) elem =
      (elementJson j casts value).elim
        (if elem.optional then .ok none else .error .failed)
        fun json => (decodeAs casts json (resolved elem.type json)).map some := by
  rw [decodeObject, asked, elemJson_named, encodeEntry_get distinct, given, Option.bind_some]
  cases elementJson j casts value <;> rfl

def tagElements (tag : NeuJsonTag) : List (String × NeuJsonValue) :=
  [("type", .int tag.type), ("name", .str tag.name), ("attribute", .int tag.attributes),
    ("precision", .int tag.precision), ("decimal", .double tag.decimal),
    ("address", .str tag.address),
    ("description", (tag.description.map NeuJsonValue.str).getD .undefine), ("value", tag.value)]

def readDescription (j : Jansson) (tag : NeuJsonTag) : Option CStr := tag.description.filter j.utf8

def readDecimal (tag : NeuJsonTag) : Nat :=
  if Ieee.binary64.special tag.decimal then 0 else tag.decimal % 2 ^ 64

theorem decodeTag_entry (tag : NeuJsonTag) :
    neuJsonDecodeTagJson casts (some (neuJsonEncodeTag j casts tag)) =
      if j.utf8 tag.name ∧ j.utf8 tag.address then do
        let value ← readBack j casts tag.value
        let read := { tag with
          description := readDescription j tag, decimal := readDecimal tag, value }
        if neuJsonTagCheckType read then .ok read else .error .failed
      else .error .failed := by
  have distinct : ((tagElements tag).map Prod.fst).Nodup :=
    (by decide : ["type", "name", "attribute", "precision", "decimal", "address", "description",
      "value"].Nodup)
  have encoded : neuJsonEncodeTag j casts tag = neuJsonEncodeEntry j casts (tagElements tag) := rfl
  have type : decodeObject casts (neuJsonEncodeTag j casts tag) (required "type" .int) =
      .ok (some (.int tag.type)) := decodeEntry_int distinct rfl
  have attributes : decodeObject casts (neuJsonEncodeTag j casts tag) (required "attribute" .int) =
      .ok (some (.int tag.attributes)) := decodeEntry_int distinct rfl
  have name : decodeObject casts (neuJsonEncodeTag j casts tag) (required "name" .str) =
      if j.utf8 tag.name then .ok (some (.str tag.name)) else .error .failed :=
    decodeEntry_str distinct rfl
  have address : decodeObject casts (neuJsonEncodeTag j casts tag) (required "address" .str) =
      if j.utf8 tag.address then .ok (some (.str tag.address)) else .error .failed :=
    decodeEntry_str distinct rfl
  have precision : decodeObject casts (neuJsonEncodeTag j casts tag) (optionally "precision" .int) =
      .ok (some (.int tag.precision)) := by
    rw [encoded, decodeMember distinct rfl rfl]
    rfl
  have decimal : ∃ value, decodeObject casts (neuJsonEncodeTag j casts tag)
      (optionally "decimal" .double) = .ok value ∧ doubleOf value = readDecimal tag := by
    rw [encoded, decodeMember distinct rfl rfl, elementJson, jsonReal, readDecimal]
    cases Ieee.binary64.special tag.decimal with
    | true => exact ⟨none, rfl, rfl⟩
    | false => exact ⟨_, rfl, UInt64.toNat_ofNat'⟩
  have description : ∃ value, decodeObject casts (neuJsonEncodeTag j casts tag)
      (optionally "description" .str) = .ok value ∧ textOf value = readDescription j tag := by
    rw [encoded, decodeMember distinct rfl rfl, readDescription]
    cases tag.description with
    | none => exact ⟨none, rfl, rfl⟩
    | some text =>
      rw [Option.map_some, Option.getD_some, elementJson, jsonString, Option.filter]
      cases j.utf8 text with
      | true => exact ⟨some (.str text), rfl, rfl⟩
      | false => exact ⟨none, rfl, rfl⟩
  have value : decodeObject casts (neuJsonEncodeTag j casts tag) (optionally "value" .undefine) =
      (elementJson j casts tag.value).elim (.ok none) fun json =>
        (decodeAs casts json (resolved .undefine json)).map some := by
    rw [encoded, decodeMember distinct rfl rfl]
    rfl
  obtain ⟨number, decimal, whole⟩ := decimal
  obtain ⟨text, description, read⟩ := description
  rw [neuJsonDecodeTagJson, neuJsonDecodeByJson, tagElems, ← whole, ← read]
  simp only [List.mapM_cons, List.mapM_nil, type, name, attributes, address, decimal, precision,
    description, value]
  cases j.utf8 tag.name with
  | false => rfl
  | true =>
    cases j.utf8 tag.address with
    | false => rfl
    | true =>
      cases held : elementJson j casts tag.value with
      | none =>
        rw [readBack, held]
        rfl
      | some json =>
        have back : readBack j casts tag.value = decodeAs casts json (resolved .undefine json) := by
          rw [readBack, held]
        rw [back, Option.elim_some]
        cases decodeAs casts json (resolved .undefine json) <;> rfl

theorem readDescription_same (tag : NeuJsonTag) :
    readDescription j tag = tag.description ↔
      ∀ text, tag.description = some text → j.utf8 text = true := by
  unfold readDescription
  cases tag.description <;> simp [Option.filter_eq_some_iff]

theorem readDecimal_same (tag : NeuJsonTag) :
    readDecimal tag = tag.decimal ↔
      tag.decimal < 2 ^ 64 ∧ Ieee.binary64.special tag.decimal = false := by
  unfold readDecimal
  cases special : Ieee.binary64.special tag.decimal with
  | false =>
    rw [if_neg (by decide), and_iff_left rfl]
    exact Nat.mod_eq_iff_lt (by decide)
  | true =>
    refine iff_of_false (fun zero => ?_) (by simp)
    rw [if_pos rfl] at zero
    rw [← zero] at special
    exact absurd special (by decide)

theorem tag_returned (tag : NeuJsonTag) :
    neuJsonDecodeTagJson casts (some (neuJsonEncodeTag j casts tag)) = .ok tag ↔
      TagReturned j tag := by
  rw [decodeTag_entry]
  by_cases texts : j.utf8 tag.name = true ∧ j.utf8 tag.address = true
  · rw [if_pos texts]
    cases back : readBack j casts tag.value with
    | error e =>
      refine iff_of_false error_ne fun returned => ?_
      cases back.symm.trans (readBack_same.2 returned.value)
    | ok value =>
      rw [decoded_bind]
      dsimp only
      constructor
      · intro same
        split at same
        · next checked =>
          have read := Except.ok.inj same
          have description := congrArg NeuJsonTag.description read
          have decimal := congrArg NeuJsonTag.decimal read
          have held : value = tag.value := congrArg NeuJsonTag.value read
          obtain ⟨small, finite⟩ := (readDecimal_same tag).1 decimal
          rw [read] at checked
          exact ⟨texts.1, texts.2, (readDescription_same tag).1 description, small, finite,
            readBack_same.1 (held ▸ back), checked⟩
        · cases same
      · intro returned
        have description := (readDescription_same tag).2 returned.described
        have decimal := (readDecimal_same tag).2 ⟨returned.small, returned.finite⟩
        have held : value = tag.value :=
          Except.ok.inj (back.symm.trans (readBack_same.2 returned.value))
        rw [description, decimal, held, if_pos returned.checked]
  · rw [if_neg texts]
    exact iff_of_false error_ne fun returned => texts ⟨returned.named, returned.addressed⟩

/- Arrays. -/

theorem tagArray_returned (casts : CastOps) (tags : List NeuJsonTag) :
    neuJsonDecodeTagArrayJson casts (neuJsonEncodeTagArray j casts tags) = .ok tags ↔
      ∀ tag ∈ tags, TagReturned j tag := by
  rw [neuJsonEncodeTagArray, neuJsonDecodeTagArrayJson, mapM_inverse]
  exact forall₂_congr fun tag _ => tag_returned tag

theorem names_decoded (names : List CStr) (e : DecodeError) :
    (names.filterMap (jsonString j)).mapM (decodeName e) = .ok (names.filter j.utf8) := by
  induction names with
  | nil => rfl
  | cons name rest ih =>
    rw [List.filterMap_cons, jsonString, List.filter_cons]
    cases legible : j.utf8 name with
    | false => exact ih
    | true =>
      rw [if_pos rfl, if_pos rfl]
      dsimp only
      rw [List.mapM_cons, ih]
      rfl

theorem arrayAt_entry {elements : List (String × NeuJsonValue)} {key : String} {items : List Json}
    (distinct : (elements.map Prod.fst).Nodup)
    (given : elements.lookup key = some (.object (.array items))) :
    arrayAt (neuJsonEncodeEntry j casts elements) key = .ok items := by
  rw [arrayAt, encodeEntry_get distinct, given]
  rfl

theorem map_returned {α β : Type} {decoded : Decoded α} {f : α → β} {value : α}
    (apart : ∀ other, f other = f value → other = value) :
    decoded.map f = .ok (f value) ↔ decoded = .ok value := by
  cases decoded with
  | error e => exact iff_of_false error_ne error_ne
  | ok other =>
    constructor
    · intro same
      rw [apart other (Except.ok.inj same)]
    · intro same
      rw [same]
      rfl

theorem decodeNode_returned (node : NeuJsonGetNodesRespNode) :
    decodeNode casts (encodeNodeEntry j casts node) = .ok node ↔
      j.utf8 node.name = true ∧ j.utf8 node.plugin = true := by
  have decoded : decodeNode casts (encodeNodeEntry j casts node) =
      if j.utf8 node.name ∧ j.utf8 node.plugin then .ok node else .error .failed := by
    rw [decodeNode, neuJsonDecodeByJson, List.mapM_cons, List.mapM_cons, List.mapM_nil,
      encodeNodeEntry, decodeEntry_str (by simp) rfl, decodeEntry_str (by simp) rfl]
    cases j.utf8 node.name <;> cases j.utf8 node.plugin <;> rfl
  rw [decoded, ok_ite]

theorem decodeGroup_returned (group : NeuJsonGetDriverGroupRespGroup) :
    decodeGroup casts (encodeGroupEntry j casts group) = .ok group ↔
      j.utf8 group.driver = true ∧ j.utf8 group.group = true := by
  have decoded : decodeGroup casts (encodeGroupEntry j casts group) =
      if j.utf8 group.driver ∧ j.utf8 group.group then .ok group else .error .failed := by
    rw [decodeGroup, neuJsonDecodeByJson, List.mapM_cons, List.mapM_cons, List.mapM_cons,
      List.mapM_cons, List.mapM_nil, encodeGroupEntry, decodeEntry_str (by simp) rfl,
      decodeEntry_str (by simp) rfl, decodeEntry_int (by simp) rfl, decodeEntry_int (by simp) rfl]
    cases j.utf8 group.driver <;> cases j.utf8 group.group <;> rfl
  rw [decoded, ok_ite]

theorem getNodes_returned (nodes : List NeuJsonGetNodesRespNode) :
    neuJsonDecodeGetNodesRespJson casts (neuJsonEncodeEntry j casts
        [("nodes", .object (.array (nodes.map (encodeNodeEntry j casts))))]) = .ok nodes ↔
      nodes ≠ [] ∧ ∀ node ∈ nodes, j.utf8 node.name = true ∧ j.utf8 node.plugin = true := by
  rw [neuJsonDecodeGetNodesRespJson, arrayAt_entry (by simp) rfl, decoded_bind, List.length_map]
  cases nodes with
  | nil => exact iff_of_false error_ne fun some => some.1 rfl
  | cons node rest =>
    rw [if_neg (by simp), mapM_inverse, and_iff_right (List.cons_ne_nil _ _)]
    exact forall₂_congr fun node _ => decodeNode_returned node

theorem getDriverGroup_returned (groups : List NeuJsonGetDriverGroupRespGroup) :
    neuJsonDecodeGetDriverGroupRespJson casts (neuJsonEncodeEntry j casts
        [("groups", .object (.array (groups.map (encodeGroupEntry j casts))))]) = .ok groups ↔
      ∀ group ∈ groups, j.utf8 group.driver = true ∧ j.utf8 group.group = true := by
  rw [neuJsonDecodeGetDriverGroupRespJson, arrayAt_entry (by simp) rfl, decoded_bind, mapM_inverse]
  exact forall₂_congr fun group _ => decodeGroup_returned group

theorem templateGroup_returned (group : NeuJsonTemplateGroup) :
    neuJsonDecodeTemplateGroup casts (neuJsonEncodeTemplateGroup j casts group) = .ok group ↔
      j.utf8 group.name = true ∧ ∀ tag ∈ group.tags, TagReturned j tag := by
  have decoded : neuJsonDecodeTemplateGroup casts (neuJsonEncodeTemplateGroup j casts group) =
      if j.utf8 group.name then
        (neuJsonDecodeTagArrayJson casts (neuJsonEncodeTagArray j casts group.tags)).map fun tags =>
          { group with tags }
      else .error .failed := by
    rw [neuJsonDecodeTemplateGroup, neuJsonDecodeByJson, List.mapM_cons, List.mapM_cons,
      List.mapM_cons, List.mapM_nil, neuJsonEncodeTemplateGroup, decodeEntry_str (by simp) rfl,
      decodeEntry_int (by simp) rfl, decodeEntry_object (by simp) rfl]
    cases j.utf8 group.name <;> rfl
  have apart (other : List NeuJsonTag) (same : { group with tags := other } = group) :
      other = group.tags := congrArg NeuJsonTemplateGroup.tags same
  rw [decoded, ← tagArray_returned casts]
  cases j.utf8 group.name with
  | false => exact iff_of_false error_ne (by simp)
  | true =>
    rw [if_pos rfl, and_iff_right rfl]
    exact map_returned (f := fun tags => { group with tags }) apart

theorem template_returned (tmpl : NeuJsonTemplate) :
    neuJsonDecodeTemplateJson casts (neuJsonEncodeTemplate j casts tmpl) = .ok tmpl ↔
      (j.utf8 tmpl.name = true ∧ j.utf8 tmpl.plugin = true) ∧
        ∀ group ∈ tmpl.groups, j.utf8 group.name = true ∧ ∀ tag ∈ group.tags, TagReturned j tag := by
  have decoded : neuJsonDecodeTemplateJson casts (neuJsonEncodeTemplate j casts tmpl) =
      if j.utf8 tmpl.name ∧ j.utf8 tmpl.plugin then
        ((tmpl.groups.map (neuJsonEncodeTemplateGroup j casts)).mapM
          (neuJsonDecodeTemplateGroup casts)).map fun groups => { tmpl with groups }
      else .error .failed := by
    rw [neuJsonDecodeTemplateJson, neuJsonDecodeByJson, List.mapM_cons, List.mapM_cons,
      List.mapM_cons, List.mapM_nil, neuJsonEncodeTemplate, decodeEntry_str (by simp) rfl,
      decodeEntry_str (by simp) rfl, decodeMember (by simp) rfl rfl]
    cases j.utf8 tmpl.name <;> cases j.utf8 tmpl.plugin <;> rfl
  have apart (other : List NeuJsonTemplateGroup) (same : { tmpl with groups := other } = tmpl) :
      other = tmpl.groups := congrArg NeuJsonTemplate.groups same
  rw [decoded]
  by_cases legible : j.utf8 tmpl.name = true ∧ j.utf8 tmpl.plugin = true
  · rw [if_pos legible, and_iff_right legible]
    refine (map_returned (f := fun groups => { tmpl with groups }) apart).trans ?_
    rw [mapM_inverse]
    exact forall₂_congr fun group _ => templateGroup_returned group
  · rw [if_neg legible]
    exact iff_of_false error_ne fun returned => legible returned.1

theorem decodeTwoTags_returned {α : Type} {elements : List (String × NeuJsonValue)}
    {first second third : String} {a b : CStr} {tags : List NeuJsonTag}
    (distinct : (elements.map Prod.fst).Nodup)
    (given : elements.lookup first = some (.str a)) (given' : elements.lookup second = some (.str b))
    (held : elements.lookup third = some (.object (neuJsonEncodeTagArray j casts tags)))
    {build : CStr → CStr → List NeuJsonTag → α}
    (apart : ∀ other, build a b other = build a b tags → other = tags) :
    decodeTwoTags casts first second third (neuJsonEncodeEntry j casts elements) build =
      .ok (build a b tags) ↔
      (j.utf8 a = true ∧ j.utf8 b = true) ∧ tags ≠ [] ∧ ∀ tag ∈ tags, TagReturned j tag := by
  rw [decodeTwoTags_entry distinct given given' held, ← tagArray_returned casts]
  by_cases legible : j.utf8 a = true ∧ j.utf8 b = true
  · rw [if_pos legible, and_iff_right legible]
    cases neuJsonDecodeTagArrayJson casts (neuJsonEncodeTagArray j casts tags) with
    | error e => exact iff_of_false error_ne fun returned => error_ne returned.2
    | ok read =>
      cases read with
      | nil =>
        refine iff_of_false error_ne fun returned => returned.1 ?_
        exact (Except.ok.inj returned.2).symm
      | cons tag rest =>
        rw [decoded_bind, if_neg (by simp)]
        constructor
        · intro same
          have all := apart _ (Except.ok.inj same)
          exact ⟨all ▸ List.cons_ne_nil _ _, congrArg Except.ok all⟩
        · intro returned
          rw [Except.ok.inj returned.2]
          rfl
  · rw [if_neg legible]
    exact iff_of_false error_ne fun returned => legible returned.1

end

/- Messages. -/

def ApiMsg.Returned (j : Jansson) : ApiMsg → Prop
  | addNode plugin name => j.utf8 plugin = true ∧ j.utf8 name = true
  | delNode name => j.utf8 name = true
  | updateNode _ _ => False
  | nodeCtl node _ => j.utf8 node = true
  | nodeSetting req => j.utf8 req.node = true ∧ ∃ value,
      (j.loads req.setting).bind (fun root => jsonObjectGet (some root) "params") = some value ∧
        j.dumps (.object [("params", value)]) = some req.setting
  | getNodes nodes => nodes ≠ [] ∧ ∀ node ∈ nodes, j.utf8 node.name = true ∧ j.utf8 node.plugin = true
  | addGroup node group _ | delGroup node group => j.utf8 node = true ∧ j.utf8 group = true
  | updateGroup node group newName interval =>
    (j.utf8 node = true ∧ j.utf8 group = true) ∧ (∀ text, newName = some text → j.utf8 text = true) ∧
      (newName.isSome = true ∨ interval.isSome = true)
  | getDriverGroup groups => ∀ group ∈ groups, j.utf8 group.driver = true ∧ j.utf8 group.group = true
  | addTags req => (j.utf8 req.node = true ∧ j.utf8 req.group = true) ∧ req.tags ≠ [] ∧
      ∀ tag ∈ req.tags, TagReturned j tag
  | delTags node group tags => (j.utf8 node = true ∧ j.utf8 group = true) ∧ tags ≠ [] ∧
      ∀ tag ∈ tags, j.utf8 tag = true
  | ndriverMap ndriver driver group =>
    j.utf8 ndriver = true ∧ j.utf8 driver = true ∧ j.utf8 group = true
  | template tmpl => (j.utf8 tmpl.name = true ∧ j.utf8 tmpl.plugin = true) ∧
      ∀ group ∈ tmpl.groups, j.utf8 group.name = true ∧ ∀ tag ∈ group.tags, TagReturned j tag
  | templateModGroup tmpl group _ | templateDelGroup tmpl group =>
    j.utf8 tmpl = true ∧ j.utf8 group = true
  | templateModTags tmpl group tags => (j.utf8 tmpl = true ∧ j.utf8 group = true) ∧ tags ≠ [] ∧
      ∀ tag ∈ tags, TagReturned j tag
  | templateDelTags tmpl group tags => (j.utf8 tmpl = true ∧ j.utf8 group = true) ∧
      ∀ tag ∈ tags, j.utf8 tag = true

section
variable {j : Jansson} {casts : CastOps}

theorem delNode_returned (name : CStr) :
    decodeDelNode casts (neuJsonEncodeEntry j casts [("name", .str name)]) = .ok (.delNode name) ↔
      j.utf8 name = true := by
  have decoded : decodeDelNode casts (neuJsonEncodeEntry j casts [("name", .str name)]) =
      if j.utf8 name then .ok (.delNode name) else .error .failed := by
    rw [decodeDelNode, neuJsonDecodeByJson, List.mapM_cons, List.mapM_nil,
      decodeEntry_str (by simp) rfl]
    cases j.utf8 name <;> rfl
  rw [decoded, ok_ite]

theorem nodeCtl_returned (node : CStr) (cmd : Int) :
    decodeNodeCtl casts (neuJsonEncodeEntry j casts [("node", .str node), ("cmd", .int cmd)]) =
      .ok (.nodeCtl node cmd) ↔ j.utf8 node = true := by
  have decoded : decodeNodeCtl casts
      (neuJsonEncodeEntry j casts [("node", .str node), ("cmd", .int cmd)]) =
        if j.utf8 node then .ok (.nodeCtl node cmd) else .error .failed := by
    rw [decodeNodeCtl, neuJsonDecodeByJson, List.mapM_cons, List.mapM_cons, List.mapM_nil,
      decodeEntry_str (by simp) rfl, decodeEntry_int (by simp) rfl]
    cases j.utf8 node <;> rfl
  rw [decoded, ok_ite]

theorem ndriverMap_returned (ndriver driver group : CStr) :
    decodeNdriverMap casts (neuJsonEncodeEntry j casts
        [("ndriver", .str ndriver), ("driver", .str driver), ("group", .str group)]) =
      .ok (.ndriverMap ndriver driver group) ↔
      j.utf8 ndriver = true ∧ j.utf8 driver = true ∧ j.utf8 group = true := by
  have decoded : decodeNdriverMap casts (neuJsonEncodeEntry j casts
      [("ndriver", .str ndriver), ("driver", .str driver), ("group", .str group)]) =
        if j.utf8 ndriver ∧ j.utf8 driver ∧ j.utf8 group then .ok (.ndriverMap ndriver driver group)
        else .error .failed := by
    rw [decodeNdriverMap, neuJsonDecodeByJson, List.mapM_cons, List.mapM_cons, List.mapM_cons,
      List.mapM_nil, decodeEntry_str (by simp) rfl, decodeEntry_str (by simp) rfl,
      decodeEntry_str (by simp) rfl]
    cases j.utf8 ndriver <;> cases j.utf8 driver <;> cases j.utf8 group <;> rfl
  rw [decoded, ok_ite]

/-- The number is read as a text, which is NULL. -/
theorem updateNode_refused (name newName : CStr) (place : Int) :
    decodeTwo casts "name" "new_name" (neuJsonEncodeEntry j casts
        [("name", .str name), ("new_name", .int place)]) ApiMsg.updateNode ≠
      .ok (.updateNode name newName) := by
  have read : decodeObject casts (neuJsonEncodeEntry j casts
      [("name", .str name), ("new_name", .int place)]) (required "new_name" .str) =
        .error .crashed := by
    rw [decodeMember (by simp) rfl rfl]
    rfl
  rw [decodeTwo, neuJsonDecodeByJson, List.mapM_cons, List.mapM_cons, List.mapM_nil,
    decodeEntry_str (by simp) rfl, read]
  cases j.utf8 name <;> exact error_ne

theorem nodeSetting_decoded {members : List (String × Json)} {node : CStr}
    (given : members.lookup "node" = jsonString j node) :
    neuJsonDecodeNodeSettingReq j casts (.object members) =
      if j.utf8 node then
        (members.lookup "params").elim (.error .failed) fun value =>
          (j.dumps (.object [("params", value)])).elim (.error .failed) fun setting =>
            .ok { node, setting }
      else .error .failed := by
  have read : decodeObject casts (.object members) (required "node" .str) =
      if j.utf8 node then .ok (some (.str node)) else .error .failed := by
    rw [decodeObject_str, jsonObjectGet, given, jsonString]
    cases j.utf8 node <;> rfl
  rw [neuJsonDecodeNodeSettingReq, neuJsonDecodeByJson, List.mapM_cons, List.mapM_nil, read,
    neuJsonDumpKey, jsonObjectGet]
  cases j.utf8 node with
  | false => rfl
  | true =>
    cases members.lookup "params" with
    | none => rfl
    | some value =>
      dsimp only
      rw [Option.elim_some]
      cases j.dumps (.object [("params", value)]) <;> rfl

theorem nodeSetting_returned (req : NeuJsonNodeSettingReq) :
    neuJsonDecodeNodeSettingReq j casts (neuJsonEncodeNodeSettingReq j casts req) = .ok req ↔
      j.utf8 req.node = true ∧ ∃ value,
        (j.loads req.setting).bind (fun root => jsonObjectGet (some root) "params") = some value ∧
          j.dumps (.object [("params", value)]) = some req.setting := by
  obtain ⟨members, built, found⟩ := @encodeField_lookup j casts [("node", .str req.node)] (by simp) []
  have node : members.lookup "node" = jsonString j req.node := (found "node").trans Option.or_none
  have params : members.lookup "params" = none := found "params"
  have loaded : neuJsonEncodeNodeSettingReq j casts req =
      ((j.loads req.setting).bind fun root => jsonObjectGet (some root) "params").elim
        (.object members) fun value => .object (setMember "params" value members) := by
    rw [neuJsonEncodeNodeSettingReq, neuJsonEncodeEntry, built, neuJsonLoadKey]
    cases j.loads req.setting with
    | none => rfl
    | some root =>
      rw [Option.bind_some]
      dsimp only
      cases jsonObjectGet (some root) "params" <;> rfl
  rw [loaded]
  cases (j.loads req.setting).bind (fun root => jsonObjectGet (some root) "params") with
  | none =>
    rw [Option.elim_none, nodeSetting_decoded node, params]
    refine iff_of_false ?_ (by simp)
    cases j.utf8 req.node <;> exact error_ne
  | some value =>
    have node' : (setMember "params" value members).lookup "node" = jsonString j req.node := by
      rw [lookup_setMember, if_neg (by simp), node]
    have params' : (setMember "params" value members).lookup "params" = some value := by
      rw [lookup_setMember, if_pos rfl]
    rw [Option.elim_some, nodeSetting_decoded node', params', Option.elim_some]
    simp only [Option.some.injEq, exists_eq_left']
    cases j.utf8 req.node with
    | false => exact iff_of_false error_ne (by simp)
    | true =>
      rw [if_pos rfl, and_iff_right rfl]
      cases j.dumps (.object [("params", value)]) with
      | none => exact iff_of_false error_ne (by simp)
      | some setting =>
        constructor
        · intro same
          exact congrArg some (congrArg NeuJsonNodeSettingReq.setting (Except.ok.inj same))
        · intro same
          rw [Option.some.inj same]
          rfl

theorem updateGroup_names (node group : CStr) (newName : Option CStr) (interval : Option Int) :
    (([("node", .str node), ("group", .str group),
      ("new_name", (newName.map NeuJsonValue.str).getD .undefine)] ++
        interval.toList.map fun n => ("interval", .int n) : List (String × NeuJsonValue)).map
          Prod.fst).Nodup := by
  cases interval <;> simp

/-- A new name that is not UTF-8 is lost on the way. -/
theorem updateGroup_newName (node group : CStr) (newName : Option CStr) (interval : Option Int) :
    ∃ value, decodeObject casts
      (neuJsonEncodeUpdateGroupConfigReq j casts node group newName interval)
        (optionally "new_name" .str) = .ok value ∧ textOf value = newName.filter j.utf8 := by
  rw [neuJsonEncodeUpdateGroupConfigReq,
    decodeMember (updateGroup_names node group newName interval) rfl rfl]
  cases newName with
  | none => exact ⟨none, rfl, rfl⟩
  | some text =>
    rw [Option.map_some, Option.getD_some, elementJson, jsonString, Option.filter]
    cases j.utf8 text with
    | true => exact ⟨some (.str text), rfl, rfl⟩
    | false => exact ⟨none, rfl, rfl⟩

theorem updateGroup_interval (node group : CStr) (newName : Option CStr) (interval : Option Int) :
    jsonObjectGet (some (neuJsonEncodeUpdateGroupConfigReq j casts node group newName interval))
      "interval" = interval.map Json.integer := by
  rw [neuJsonEncodeUpdateGroupConfigReq,
    encodeEntry_get (updateGroup_names node group newName interval)]
  cases interval <;> rfl

theorem updateGroup_decoded (node group : CStr) (newName : Option CStr) (interval : Option Int) :
    neuJsonDecodeUpdateGroupConfigReq casts
      (neuJsonEncodeUpdateGroupConfigReq j casts node group newName interval) =
        if j.utf8 node ∧ j.utf8 group then
          if newName.filter j.utf8 = none ∧ interval = none then .error .failed
          else .ok (.updateGroup node group (newName.filter j.utf8) interval)
        else .error .failed := by
  have distinct := updateGroup_names node group newName interval
  obtain ⟨value, name, text⟩ := @updateGroup_newName j casts node group newName interval
  have readNode : decodeObject casts
      (neuJsonEncodeUpdateGroupConfigReq j casts node group newName interval) (required "node" .str) =
        if j.utf8 node then .ok (some (.str node)) else .error .failed := decodeEntry_str distinct rfl
  have readGroup : decodeObject casts
      (neuJsonEncodeUpdateGroupConfigReq j casts node group newName interval) (required "group" .str) =
        if j.utf8 group then .ok (some (.str group)) else .error .failed := decodeEntry_str distinct rfl
  rw [neuJsonDecodeUpdateGroupConfigReq, neuJsonDecodeByJson, List.mapM_cons, List.mapM_cons,
    List.mapM_cons, List.mapM_nil, updateGroup_interval, name, readNode, readGroup, ← text]
  cases j.utf8 node with
  | false => rfl
  | true =>
    cases j.utf8 group with
    | false => rfl
    | true =>
      cases interval with
      | some n =>
        have set : ¬(textOf value = none ∧ some n = none) := by simp
        exact (if_neg set).symm.trans (if_pos ⟨rfl, rfl⟩).symm
      | none =>
        show (if (textOf value).isNone then (.error .failed : Decoded ApiMsg)
          else .ok (.updateGroup node group (textOf value) none)) = _
        cases textOf value <;> rfl

theorem updateGroup_returned (node group : CStr) (newName : Option CStr) (interval : Option Int) :
    neuJsonDecodeUpdateGroupConfigReq casts
        (neuJsonEncodeUpdateGroupConfigReq j casts node group newName interval) =
      .ok (.updateGroup node group newName interval) ↔
      (j.utf8 node = true ∧ j.utf8 group = true) ∧
        (∀ text, newName = some text → j.utf8 text = true) ∧
          (newName.isSome = true ∨ interval.isSome = true) := by
  have kept : newName.filter j.utf8 = newName ↔ ∀ text, newName = some text → j.utf8 text = true := by
    cases newName <;> simp [Option.filter_eq_some_iff]
  rw [updateGroup_decoded]
  by_cases legible : j.utf8 node = true ∧ j.utf8 group = true
  · rw [if_pos legible, and_iff_right legible, ← kept]
    split
    · next neither =>
      refine iff_of_false error_ne fun returned => ?_
      rw [returned.1] at neither
      simp [neither.1, neither.2] at returned
    · next either =>
      constructor
      · intro same
        have all := (ApiMsg.updateGroup.inj (Except.ok.inj same)).2.2.1
        rw [all] at either
        refine ⟨all, ?_⟩
        cases newName with
        | some text => exact .inl rfl
        | none =>
          cases interval with
          | some n => exact .inr rfl
          | none => exact absurd ⟨rfl, rfl⟩ either
      · intro returned
        rw [returned.1]
  · rw [if_neg legible]
    exact iff_of_false error_ne fun returned => legible returned.1

theorem delTags_returned (node group : CStr) (tags : List CStr) :
    neuJsonDecodeDelTagsReq casts (neuJsonEncodeEntry j casts
        [("node", .str node), ("group", .str group), ("tags", .object (nameArray j tags))]) =
      .ok (.delTags node group tags) ↔
      (j.utf8 node = true ∧ j.utf8 group = true) ∧ tags ≠ [] ∧ ∀ tag ∈ tags, j.utf8 tag = true := by
  rw [neuJsonDecodeDelTagsReq, decodeTwo_entry (by simp) rfl rfl]
  by_cases legible : j.utf8 node = true ∧ j.utf8 group = true
  · rw [if_pos legible, and_iff_right legible, decoded_bind, arrayAt_entry (by simp) rfl,
      decoded_bind, names_decoded, decoded_bind, ← List.filter_eq_self]
    have none : (tags.filterMap (jsonString j)).length ≤ 0 ↔ tags.filter j.utf8 = [] := by
      simp [List.filterMap_eq_nil_iff, jsonString]
    by_cases empty : tags.filter j.utf8 = []
    · rw [if_pos (none.2 empty), empty]
      exact iff_of_false error_ne fun returned => returned.1 returned.2.symm
    · rw [if_neg (mt none.1 empty)]
      constructor
      · intro same
        have all := (ApiMsg.delTags.inj (Except.ok.inj same)).2.2
        exact ⟨all ▸ empty, all⟩
      · intro returned
        rw [returned.2]
        rfl
  · rw [if_neg legible]
    exact iff_of_false error_ne fun returned => legible returned.1

theorem templateDelTags_returned (tmpl group : CStr) (tags : List CStr) :
    neuJsonDecodeTemplateDelTagsReq casts (neuJsonEncodeEntry j casts
        [("template", .str tmpl), ("group", .str group), ("tags", .object (nameArray j tags))]) =
      .ok (.templateDelTags tmpl group tags) ↔
      (j.utf8 tmpl = true ∧ j.utf8 group = true) ∧ ∀ tag ∈ tags, j.utf8 tag = true := by
  rw [neuJsonDecodeTemplateDelTagsReq, decodeTwo_entry (by simp) rfl rfl]
  by_cases legible : j.utf8 tmpl = true ∧ j.utf8 group = true
  · rw [if_pos legible, and_iff_right legible, decoded_bind, arrayAt_entry (by simp) rfl,
      decoded_bind, names_decoded, decoded_bind, ← List.filter_eq_self]
    constructor
    · intro same
      exact (ApiMsg.templateDelTags.inj (Except.ok.inj same)).2.2
    · intro same
      rw [same]
      rfl
  · rw [if_neg legible]
    exact iff_of_false error_ne fun returned => legible returned.1

end

theorem requests_round_trip (j : Jansson) (casts : CastOps) (address : CStr → Int) (msg : ApiMsg) :
    msg.type.decode j casts (msg.encode j casts address) = .ok msg ↔ msg.Returned j := by
  cases msg with
  | addNode plugin name | delGroup node group | templateDelGroup tmpl group =>
    rw [ApiMsg.type, ApiType.decode, ApiMsg.encode, ApiMsg.Returned]
    exact decodeTwo_returned (by simp) rfl rfl _
  | addGroup node group interval | templateModGroup tmpl group interval =>
    rw [ApiMsg.type, ApiType.decode, ApiMsg.encode, ApiMsg.Returned]
    exact decodeTwoInt_returned (by simp) rfl rfl rfl _
  | delNode name => exact delNode_returned name
  | updateNode name newName => exact iff_of_false (updateNode_refused name newName _) id
  | nodeCtl node cmd => exact nodeCtl_returned node cmd
  | nodeSetting req =>
    exact (map_returned fun other same => ApiMsg.nodeSetting.inj same).trans (nodeSetting_returned req)
  | getNodes nodes =>
    exact (map_returned fun other same => ApiMsg.getNodes.inj same).trans (getNodes_returned nodes)
  | updateGroup node group newName interval =>
    exact updateGroup_returned node group newName interval
  | getDriverGroup groups =>
    exact (map_returned fun other same => ApiMsg.getDriverGroup.inj same).trans
      (getDriverGroup_returned groups)
  | addTags req =>
    rw [ApiMsg.type, ApiType.decode, ApiMsg.encode, ApiMsg.Returned]
    refine decodeTwoTags_returned (by simp) rfl rfl rfl ?_
    intro other same
    exact congrArg NeuJsonAddTagsReq.tags (ApiMsg.addTags.inj same)
  | delTags node group tags => exact delTags_returned node group tags
  | ndriverMap ndriver driver group => exact ndriverMap_returned ndriver driver group
  | template tmpl =>
    exact (map_returned fun other same => ApiMsg.template.inj same).trans (template_returned tmpl)
  | templateModTags tmpl group tags =>
    rw [ApiMsg.type, ApiType.decode, ApiMsg.encode, ApiMsg.Returned]
    refine decodeTwoTags_returned (by simp) rfl rfl rfl ?_
    intro other same
    exact (ApiMsg.templateModTags.inj same).2.2
  | templateDelTags tmpl group tags => exact templateDelTags_returned tmpl group tags

end Cpm
