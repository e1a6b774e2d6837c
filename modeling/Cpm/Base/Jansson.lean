import Cpm.Base.Json
import Cpm.Base.Value

/-! Documents built and read through `utils/json.c`. What jansson itself does with texts is given. -/
namespace Cpm

open Lib

/-- Which texts `json_string` takes, and what is read from and printed as a text. -/
structure Jansson where
  utf8 : CStr → Bool
  loads : CStr → Option Json
  dumps : Json → Option CStr

structure CastOps extends FloatOps where
  intToFloat : Int → Nat

def noCasts : CastOps :=
  ⟨⟨exactBand, fun _ => 0, fun _ => 0, fun _ => 0, fun _ => 0, fun _ => 0, fun _ _ => 0, fun _ _ => 0⟩,
    fun _ => 0⟩

inductive NeuJsonType where
  | undefine
  | int
  | bit
  | str
  | double
  | float
  | bool
  | object
  | bytes
  deriving DecidableEq

/-- `neu_json_type_e` with the member of `neu_json_value_u` that belongs to it. Floating numbers are
given by their bits. -/
inductive NeuJsonValue where
  | undefine
  | int (value : Int)
  | bit (value : UInt8)
  | str (text : CStr)
  | double (bits : Nat)
  | float (bits : Nat)
  | bool (value : Bool)
  | object (value : Json)
  | bytes (values : List UInt8)

def jsonString (j : Jansson) (text : CStr) : Option Json :=
  if j.utf8 text then some (.string text) else none

def jsonReal (bits : Nat) : Option Json :=
  if Ieee.binary64.special bits then none else some (.real (UInt64.ofNat bits))

def jsonBoolean (value : Bool) : Json := if value then .true else .false

/-- The name of a member: a constant of the program, or a text that it was given. -/
inductive ElemName where
  | own (name : String)
  | given (name : CStr)

instance : Coe String ElemName := ⟨.own⟩

def jsonKey (name : CStr) : String := .ofList name.chars

/-- The constants are ASCII; of the other names jansson takes those that are UTF-8. -/
def ElemName.key (j : Jansson) : ElemName → Option String
  | own name => some name
  | given name => if j.utf8 name then some (jsonKey name) else none

/-- A member keeps its place when it is set again. -/
def setMember (key : String) (value : Json) : List (String × Json) → List (String × Json)
  | [] => [(key, value)]
  | (name, old) :: rest =>
    if name = key then (name, value) :: rest else (name, old) :: setMember key value rest

def jsonObjectSet (j : Jansson) (object : Json) (name : ElemName) (value : Option Json) : Json × Int :=
  match object, name.key j, value with
  | .object members, some key, some value => (.object (setMember key value members), 0)
  | _, _, _ => (object, -1)

/-- The JSON of an element; a value without a type has none. -/
def elementJson (j : Jansson) (casts : CastOps) : NeuJsonValue → Option Json
  | .undefine => none
  | .int value => some (.integer value)
  | .bit value => some (.integer value.toNat)
  | .str text => jsonString j text
  | .double bits => jsonReal bits
  | .float bits => jsonReal (casts.ofFloat bits)
  | .bool value => some (jsonBoolean value)
  | .object value => some value
  | .bytes values => some (.array (values.map fun b => .integer b.toNat))

/-- A member that cannot be set is left out. -/
def encodeObject (j : Jansson) (casts : CastOps) (object : Json) (element : ElemName × NeuJsonValue) :
    Json :=
  (jsonObjectSet j object element.1 (elementJson j casts element.2)).1

def neuJsonEncodeField (j : Jansson) (casts : CastOps) (object : Json)
    (elements : List (ElemName × NeuJsonValue)) : Json :=
  elements.foldl (encodeObject j casts) object

def own (elements : List (String × NeuJsonValue)) : List (ElemName × NeuJsonValue) :=
  elements.map fun element => (.own element.1, element.2)

def neuJsonEncodeEntry (j : Jansson) (casts : CastOps) (elements : List (String × NeuJsonValue)) :
    Json :=
  neuJsonEncodeField j casts (.object []) (own elements)

/-- The text must be that of an object with the key. -/
def neuJsonLoadKey (j : Jansson) (object : Json) (key : String) (input : CStr) : Json × Int :=
  match j.loads input with
  | none => (object, -1)
  | some loaded =>
    match jsonObjectGet (some loaded) key with
    | none => (object, -1)
    | some value => jsonObjectSet j object key (some value)

/- Decoding. -/

/-- A decoder fails, or hands the NULL that a lookup gave to a function that reads it. -/
inductive DecodeError where
  | failed
  | crashed
  deriving DecidableEq

abbrev Decoded := Except DecodeError

/-- An element without a name is read from the value itself. -/
structure NeuJsonElem where
  name : Option String
  type : NeuJsonType
  optional : Bool

def required (name : String) (type : NeuJsonType) : NeuJsonElem := ⟨name, type, false⟩

def optionally (name : String) (type : NeuJsonType) : NeuJsonElem := ⟨name, type, true⟩

def jsonRealValue : Json → Nat
  | .real bits => bits.toNat
  | _ => 0

/-- An element without a type takes the one of the value. -/
def resolved : NeuJsonType → Json → NeuJsonType
  | .undefine, .string _ => .str
  | .undefine, .real _ => .double
  | .undefine, .true | .undefine, .false => .bool
  | .undefine, .integer _ => .int
  | .undefine, .array _ => .bytes
  | type, _ => type

/-- The length is one byte, and room is made for as many bytes only. -/
def decodeBytes (items : List Json) : Decoded NeuJsonValue :=
  let length := items.length % 256
  if length = 0 then .ok (.bytes [])
  else if length < items.length then .error .crashed
  else .ok (.bytes (items.map fun item => .ofNat (jsonIntegerValue (some item) % 2 ^ 8).toNat))

def decodeAs (casts : CastOps) (ob : Json) : NeuJsonType → Decoded NeuJsonValue
  | .bit => .ok (.bit (.ofNat (jsonIntegerValue (some ob) % 2 ^ 8).toNat))
  | .int => .ok (.int (jsonIntegerValue (some ob)))
  | .str =>
    match jsonStringValue (some ob) with
    | some text => .ok (.str text)
    | none => .error .crashed
  | .float =>
    match ob with
    | .integer n => .ok (.float (casts.intToFloat n))
    | ob => .ok (.float (casts.toFloat (jsonRealValue ob)))
  | .double =>
    match ob with
    | .integer n => .ok (.double (casts.ofInt n))
    | ob => .ok (.double (jsonRealValue ob))
  | .bool =>
    match ob with
    | .true => .ok (.bool true)
    | _ => .ok (.bool false)
  | .bytes =>
    match ob with
    | .array items => decodeBytes items
    | _ => .ok (.bytes [])
  | .object => .ok (.object ob)
  | .undefine => .error .failed

def elemJson (root : Json) : Option String → Option Json
  | none => some root
  | some name => jsonObjectGet (some root) name

/-- An optional element that is not there is left as it was, which is zeroed. -/
def decodeObject (casts : CastOps) (root : Json) (elem : NeuJsonElem) : Decoded (Option NeuJsonValue) :=
  match elemJson root elem.name with
  | none => if elem.optional then .ok none else .error .failed
  | some ob => (decodeAs casts ob (resolved elem.type ob)).map some

/-- One after the other, up to the first that fails. -/
def neuJsonDecodeByJson (casts : CastOps) (json : Option Json) (elems : List NeuJsonElem) :
    Decoded (List (Option NeuJsonValue)) :=
  match json with
  | none => .error .failed
  | some root => elems.mapM (decodeObject casts root)

def neuJsonDumpKey (j : Jansson) (object : Json) (key : String) (mustExist : Bool) :
    Decoded (Option CStr) :=
  match jsonObjectGet (some object) key with
  | none => if mustExist then .error .failed else .ok none
  | some value =>
    match j.dumps (.object [(key, value)]) with
    | none => .error .failed
    | some text => .ok (some text)

def arrayAt (json : Json) (key : String) : Decoded (List Json) :=
  match jsonObjectGet (some json) key with
  | some (.array items) => .ok items
  | _ => .error .failed

section
variable {j : Jansson} {casts : CastOps}

theorem jsonKey_inj {a b : CStr} : jsonKey a = jsonKey b ↔ a = b := by
  constructor
  · intro same
    exact CStr.ext (String.ofList_injective same)
  · rintro rfl
    rfl

@[simp] theorem key_own (name : String) : (ElemName.own name).key j = some name := rfl

@[simp] theorem own_nil : own [] = [] := rfl

@[simp] theorem own_cons (element : String × NeuJsonValue) (rest : List (String × NeuJsonValue)) :
    own (element :: rest) = (.own element.1, element.2) :: own rest := rfl

@[simp] theorem jsonObjectSet_own (members : List (String × Json)) (key : String) (value : Json) :
    jsonObjectSet j (.object members) (.own key) (some value) =
      (.object (setMember key value members), 0) := rfl

@[simp] theorem jsonObjectSet_none (object : Json) (name : ElemName) :
    jsonObjectSet j object name none = (object, -1) := by
  unfold jsonObjectSet
  split
  · next valued => cases valued
  · rfl

/-- A name that jansson refuses, and its value, are lost. -/
theorem encodeObject_refused {name : ElemName} (refused : name.key j = none) (object : Json)
    (value : NeuJsonValue) : encodeObject j casts object (name, value) = object := by
  unfold encodeObject jsonObjectSet
  split
  · next taken _ => cases refused.symm.trans taken
  · rfl

theorem encodeObject_taken {name : ElemName} {key : String} (taken : name.key j = some key)
    (object : Json) (value : NeuJsonValue) :
    encodeObject j casts object (name, value) = encodeObject j casts object (.own key, value) := by
  unfold encodeObject jsonObjectSet
  rw [taken, key_own]

def taken (j : Jansson) (elements : List (ElemName × NeuJsonValue)) : List (String × NeuJsonValue) :=
  elements.filterMap fun element => (element.1.key j).map fun key => (key, element.2)

theorem encodeField_taken (object : Json) (elements : List (ElemName × NeuJsonValue)) :
    neuJsonEncodeField j casts object elements =
      neuJsonEncodeField j casts object (own (taken j elements)) := by
  unfold neuJsonEncodeField
  induction elements generalizing object with
  | nil => rfl
  | cons element rest ih =>
    obtain ⟨name, value⟩ := element
    cases kept : name.key j with
    | none =>
      have gone : taken j ((name, value) :: rest) = taken j rest := by simp [taken, kept]
      rw [gone, List.foldl_cons, encodeObject_refused kept]
      exact ih object
    | some key =>
      have there : taken j ((name, value) :: rest) = (key, value) :: taken j rest := by
        simp [taken, kept]
      rw [there, List.foldl_cons, encodeObject_taken kept]
      exact ih _

end

section
variable {casts : CastOps} {ob : Json} {name : String} {type : NeuJsonType}

@[simp] theorem required_name : (required name type).name = some name := rfl

@[simp] theorem required_type : (required name type).type = type := rfl

@[simp] theorem required_optional : (required name type).optional = false := rfl

@[simp] theorem optionally_name : (optionally name type).name = some name := rfl

@[simp] theorem optionally_type : (optionally name type).type = type := rfl

@[simp] theorem optionally_optional : (optionally name type).optional = true := rfl

@[simp] theorem elemJson_named (root : Json) :
    elemJson root (some name) = jsonObjectGet (some root) name := rfl

@[simp] theorem resolved_typed (typed : type ≠ .undefine) : resolved type ob = type := by
  cases type with
  | undefine => exact absurd rfl typed
  | _ => rfl

@[simp] theorem decodeAs_int (n : Int) : decodeAs casts (.integer n) .int = .ok (.int n) := rfl

@[simp] theorem decodeAs_str (text : CStr) : decodeAs casts (.string text) .str = .ok (.str text) := rfl

@[simp] theorem decodeAs_double (bits : UInt64) :
    decodeAs casts (.real bits) .double = .ok (.double bits.toNat) := rfl

@[simp] theorem decodeAs_object : decodeAs casts ob .object = .ok (.object ob) := rfl

@[simp] theorem decoded_bind {α β : Type} (a : α) (next : α → Decoded β) :
    (Except.ok a >>= next) = next a := rfl

@[simp] theorem decoded_map {α β : Type} (a : α) (f : α → β) :
    Except.map f (Except.ok a : Decoded α) = .ok (f a) := rfl

end

end Cpm
