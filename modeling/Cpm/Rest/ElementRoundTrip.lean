import Cpm.Lib.Decode
import Cpm.Lib.IeeeCast
import Cpm.Rest.ByteArrays
import Cpm.Rest.GetConfig
import Cpm.Rest.GlobalConfig
import Cpm.Rest.TagRoundTrip

/-! Elements encoded into one object and decoded from it, with their types or without. -/
namespace Cpm

open Lib Lib.Decode

structure FloatLaws (casts : CastOps) : Prop extends CastLaws casts where
  finite : ∀ f < 2 ^ 32, Ieee.binary64.special (casts.ofFloat f) = Ieee.binary32.special f

def ieeeCasts : CastOps :=
  { noCasts with
    ofInt := Ieee.ofInteger .binary64
    ofFloat := Ieee.widen
    toFloat := Ieee.narrow
    intToFloat := Ieee.ofInteger .binary32 }

theorem ieeeCasts_laws : FloatLaws ieeeCasts where
  wide := Ieee.widen_lt
  exact f small finite := by
    have plain : Ieee.binary32.special f = false := (Ieee.special_widen f).symm.trans finite
    exact Ieee.narrow_widen small plain
  finite f _ := Ieee.special_widen f

def NeuJsonValue.type : NeuJsonValue → NeuJsonType
  | undefine => .undefine
  | int _ => .int
  | bit _ => .bit
  | str _ => .str
  | double _ => .double
  | float _ => .float
  | bool _ => .bool
  | object _ => .object
  | bytes _ => .bytes

/-- The values that the codec is for: texts in UTF-8, finite numbers, and as many bytes as the
length can tell. -/
def Codable (j : Jansson) : NeuJsonValue → Prop
  | .int _ | .bit _ | .bool _ => True
  | .str text => j.utf8 text = true
  | .double bits => bits < 2 ^ 64 ∧ Ieee.binary64.special bits = false
  | .float bits => bits < 2 ^ 32 ∧ Ieee.binary32.special bits = false
  | .bytes values => values.length < 256
  | .undefine | .object _ => False

/-- What a value without a type comes back as: small integers and short numbers have no kind of
their own in JSON. -/
def inferred (casts : CastOps) : NeuJsonValue → NeuJsonValue
  | .bit value => .int value.toNat
  | .float bits => .double (casts.ofFloat bits)
  | value => value

structure Asked where
  element : CStr × NeuJsonValue
  typed : Bool
  optional : Bool

def Asked.elem (asked : Asked) : NeuJsonElem :=
  ⟨jsonKey asked.element.1, if asked.typed then asked.element.2.type else .undefine, asked.optional⟩

def Asked.answer (casts : CastOps) (asked : Asked) : NeuJsonValue :=
  if asked.typed then asked.element.2 else inferred casts asked.element.2

def withNames (elements : List (CStr × NeuJsonValue)) : List (ElemName × NeuJsonValue) :=
  elements.map fun element => (.given element.1, element.2)

theorem lookup_first {key name : String} {value : Json} {members : List (String × Json)} :
    List.lookup name ((key, value) :: members) =
      if name = key then some value else members.lookup name := by
  by_cases same : name = key
  · rw [if_pos same, same]
    exact List.lookup_cons_self
  · have apart : (name == key) = false := by simpa using same
    rw [if_neg same, List.lookup_cons, apart]

theorem lookup_setMember (key name : String) (value : Json) (members : List (String × Json)) :
    (setMember key value members).lookup name =
      if name = key then some value else members.lookup name := by
  induction members with
  | nil => exact lookup_first
  | cons member rest ih =>
    obtain ⟨first, old⟩ := member
    unfold setMember
    by_cases here : first = key
    · subst here
      rw [if_pos rfl, lookup_first, lookup_first]
      split <;> rfl
    · rw [if_neg here, lookup_first, lookup_first, ih]
      by_cases same : name = first
      · have apart : name ≠ key := fun equal => here (same.symm.trans equal)
        rw [if_pos same, if_neg apart, if_pos same]
      · rw [if_neg same, if_neg same]

section
variable {j : Jansson} {casts : CastOps}

theorem encoded_members {elements : List (CStr × NeuJsonValue)}
    (distinct : (elements.map Prod.fst).Nodup)
    (encodable : ∀ element ∈ elements, (elementJson j casts element.2).isSome = true)
    (members : List (String × Json)) :
    ∃ after, neuJsonEncodeField j casts (.object members) (withNames elements) = .object after ∧
      (∀ element ∈ elements, after.lookup (jsonKey element.1) =
        if j.utf8 element.1 then elementJson j casts element.2
        else members.lookup (jsonKey element.1)) ∧
      ∀ name ∉ elements.map Prod.fst, after.lookup (jsonKey name) = members.lookup (jsonKey name) := by
  induction elements generalizing members with
  | nil => exact ⟨members, rfl, List.forall_mem_nil _, fun _ _ => rfl⟩
  | cons element rest ih =>
    obtain ⟨name, value⟩ := element
    obtain ⟨json, encoded⟩ := Option.isSome_iff_exists.mp (encodable _ List.mem_cons_self)
    have encodable := fun other inside => encodable other (List.mem_cons_of_mem (name, value) inside)
    rw [List.map_cons, List.nodup_cons] at distinct
    cases legible : j.utf8 name with
    | false =>
      have refused : (ElemName.given name).key j = none := if_neg (by simp [legible])
      obtain ⟨after, built, found, kept⟩ := ih distinct.2 encodable members
      refine ⟨after, ?_, List.forall_mem_cons.mpr ⟨?_, found⟩, fun other absent => ?_⟩
      · rw [withNames, List.map_cons, neuJsonEncodeField, List.foldl_cons, encodeObject_refused refused]
        exact built
      · rw [kept name distinct.1, legible, if_neg Bool.false_ne_true]
      · exact kept other fun inside => absent (List.mem_cons_of_mem _ inside)
    | true =>
      have taken : (ElemName.given name).key j = some (jsonKey name) := if_pos legible
      have first : encodeObject j casts (.object members) (.given name, value) =
          .object (setMember (jsonKey name) json members) := by
        rw [encodeObject_taken taken, encodeObject, encoded, jsonObjectSet_own]
      obtain ⟨after, built, found, kept⟩ :=
        ih distinct.2 encodable (setMember (jsonKey name) json members)
      have apart {other : CStr} (differ : other ≠ name) :
          (setMember (jsonKey name) json members).lookup (jsonKey other) =
            members.lookup (jsonKey other) := by
        rw [lookup_setMember, if_neg (jsonKey_inj.not.mpr differ)]
      refine ⟨after, ?_, List.forall_mem_cons.mpr ⟨?_, fun other inside => ?_⟩, fun other absent => ?_⟩
      · rw [withNames, List.map_cons, neuJsonEncodeField, List.foldl_cons, first]
        exact built
      · rw [kept name distinct.1, lookup_setMember, if_pos rfl, encoded, legible, if_pos rfl]
      · have differ : other.1 ≠ name := fun same =>
          distinct.1 (List.mem_map.mpr ⟨other, inside, same⟩)
        rw [found other inside, apart differ]
      · rw [List.map_cons, List.mem_cons, not_or] at absent
        rw [kept other absent.2, apart absent.1]

theorem decode_typed (laws : FloatLaws casts) {value : NeuJsonValue} (codable : Codable j value) :
    ∃ json, elementJson j casts value = some json ∧
      decodeAs casts json (resolved value.type json) = .ok value ∧
      decodeAs casts json (resolved .undefine json) = .ok (inferred casts value) := by
  cases value with
  | undefine | object => exact codable.elim
  | int n => exact ⟨_, rfl, rfl, rfl⟩
  | bit b =>
    have byte := b.toNat_lt
    have whole : ((b.toNat : Int) % 2 ^ 8).toNat = b.toNat := by omega
    refine ⟨.integer b.toNat, rfl, ?_, rfl⟩
    simp only [NeuJsonValue.type, resolved, decodeAs, jsonIntegerValue, whole, UInt8.ofNat_toNat]
  | bool b => cases b <;> exact ⟨_, rfl, rfl, rfl⟩
  | str text =>
    exact ⟨.string text, if_pos codable, rfl, rfl⟩
  | double bits =>
    have plain : elementJson j casts (.double bits) = some (.real (UInt64.ofNat bits)) :=
      if_neg (by simp [codable.2])
    have whole : (UInt64.ofNat bits).toNat = bits := UInt64.toNat_ofNat_of_lt' codable.1
    have same : decodeAs casts (.real (UInt64.ofNat bits)) .double = .ok (.double bits) := by
      rw [decodeAs_double, whole]
    exact ⟨_, plain, same, same⟩
  | float bits =>
    have finite : Ieee.binary64.special (casts.ofFloat bits) = false :=
      (laws.finite bits codable.1).trans codable.2
    have plain : elementJson j casts (.float bits) =
        some (.real (UInt64.ofNat (casts.ofFloat bits))) := if_neg (by simp [finite])
    have whole : (UInt64.ofNat (casts.ofFloat bits)).toNat = casts.ofFloat bits :=
      UInt64.toNat_ofNat_of_lt' (laws.wide bits)
    refine ⟨_, plain, ?_, ?_⟩
    · simp only [NeuJsonValue.type, resolved, decodeAs, jsonRealValue, whole,
        laws.exact bits codable.1 finite]
    · simp only [resolved, decodeAs_double, whole, inferred]
  | bytes values =>
    have same := decodeBytes_encoded codable
    exact ⟨_, rfl, same, same⟩

theorem asked_decoded (laws : FloatLaws casts) {members : List (String × Json)} {one : Asked}
    (codable : Codable j one.element.2)
    (found : members.lookup (jsonKey one.element.1) =
      if j.utf8 one.element.1 then elementJson j casts one.element.2 else none) :
    decodeObject casts (.object members) one.elem = .ok (some (one.answer casts)) ↔
      j.utf8 one.element.1 = true := by
  have present : elemJson (.object members) one.elem.name =
    members.lookup (jsonKey one.element.1) := rfl
  cases legible : j.utf8 one.element.1 with
  | false =>
    rw [legible, if_neg Bool.false_ne_true] at found
    refine iff_of_false (fun decoded => ?_) Bool.false_ne_true
    rw [decodeObject, present, found] at decoded
    cases optional : one.elem.optional <;> simp [optional] at decoded
  | true =>
    obtain ⟨json, encoded, typed, untyped⟩ := decode_typed laws codable
    rw [legible, if_pos rfl, encoded] at found
    have decoded : decodeAs casts json (resolved one.elem.type json) = .ok (one.answer casts) := by
      unfold Asked.elem Asked.answer
      by_cases given : one.typed = true
      · rw [if_pos given, if_pos given]
        exact typed
      · rw [if_neg given, if_neg given]
        exact untyped
    refine iff_of_true ?_ rfl
    simp only [decodeObject, present, found, decoded, decoded_map]

/-- Elements with distinct names come back, whichever are asked for and in whatever order, if and only
if their names can be keys. -/
theorem elements_round_trip (j : Jansson) (casts : CastOps) (laws : FloatLaws casts)
    (elements : List (CStr × NeuJsonValue)) (asked : List Asked)
    (distinct : (elements.map Prod.fst).Nodup)
    (codable : ∀ element ∈ elements, Codable j element.2)
    (among : ∀ one ∈ asked, one.element ∈ elements) :
    neuJsonDecodeByJson casts (some (neuJsonEncodeField j casts (.object []) (withNames elements)))
        (asked.map Asked.elem) =
      .ok (asked.map fun one => some (one.answer casts)) ↔
        ∀ one ∈ asked, j.utf8 one.element.1 = true := by
  have encodable : ∀ element ∈ elements, (elementJson j casts element.2).isSome = true := by
    intro element inside
    obtain ⟨json, encoded, -⟩ := decode_typed laws (codable element inside)
    rw [encoded]
    rfl
  obtain ⟨members, built, found, -⟩ := encoded_members distinct encodable []
  rw [built]
  refine mapM_meaning.trans (forall₂_congr fun one inside => ?_)
  have there := among one inside
  exact asked_decoded laws (codable _ there) (found _ there)

end

def sensorElements : List (CStr × NeuJsonValue) :=
  [(.lit "raw", .bytes [1, 255]), (.lit "value", .float 0x3f800000), (.lit "on", .bit 1)]

theorem elements_round_trip_sensor :
    neuJsonDecodeByJson ieeeCasts
        (some (neuJsonEncodeField smallJansson ieeeCasts (.object []) (withNames sensorElements)))
        [⟨"value", .float, false⟩, ⟨"on", .undefine, true⟩, ⟨"raw", .bytes, false⟩] =
      .ok [some (.float 0x3f800000), some (.int 1), some (.bytes [1, 255])] :=
  (elements_round_trip smallJansson ieeeCasts ieeeCasts_laws sensorElements
    [⟨(.lit "value", .float 0x3f800000), true, false⟩, ⟨(.lit "on", .bit 1), false, true⟩,
      ⟨(.lit "raw", .bytes [1, 255]), true, false⟩]
    (by decide)
    (List.forall_mem_cons.mpr ⟨(by decide : 2 < 256), List.forall_mem_cons.mpr
      ⟨⟨by decide, by decide⟩, List.forall_mem_cons.mpr ⟨trivial, List.forall_mem_nil _⟩⟩⟩)
    (by simp [sensorElements])).2 (by decide)

/-- The byte 0xC3 alone is no name in UTF-8. -/
theorem element_not_named :
    neuJsonDecodeByJson ieeeCasts
        (some (neuJsonEncodeField smallJansson ieeeCasts (.object [])
          (withNames [(.lit "\u00c3", .int 1)])))
        [⟨jsonKey (.lit "\u00c3"), .int, false⟩] = .error .failed := rfl

end Cpm
