import Cpm.Persist.Counters
import Cpm.Lib.Decode
import Cpm.Rest.ElementRoundTrip
import Cpm.Rest.TagRoundTrip

/-! Tags as rows of a table, with their static values as JSON texts, from `persist.c` and `tag.c`. -/
namespace Cpm

open Lib Lib.Decode

/-- Of jansson also the texts of values that are no objects or arrays. -/
structure AnyJansson extends Jansson where
  dumpsAny : Json → Option CStr
  loadsAny : CStr → Option Json

/- Static values. -/

def staticJson (j : Jansson) (casts : CastOps) (value : ValueU) : NeuType → Option Json
  | .bool => some (jsonBoolean (value.unsigned 1 ≠ 0))
  | .int8 => some (.integer (value.signed 1))
  | .bit | .uint8 => some (.integer (value.unsigned 1))
  | .int16 => some (.integer (value.signed 2))
  | .word | .uint16 => some (.integer (value.unsigned 2))
  | .int32 => some (.integer (value.signed 4))
  | .dword | .uint32 => some (.integer (value.unsigned 4))
  | .int64 | .lword | .uint64 => some (.integer (value.signed 8))
  | .float => jsonReal (casts.ofFloat value.f32)
  | .double => jsonReal value.d64
  | .string => jsonString j (strOf value)
  | _ => none

/-- Where a value has no JSON, there is no text, as for a tag without a value. -/
def neuTagDumpStaticValue (j : AnyJansson) (casts : CastOps) (tag : NeuDatatag) : Option CStr :=
  (neuTagGetStaticValue tag).bind fun value =>
    (staticJson j.toJansson casts value tag.type).bind j.dumpsAny

def neuTagSetStaticValueJson (casts : CastOps) (tag : NeuDatatag) (value : NeuJsonValue) :
    Option NeuDatatag :=
  if tag.isStatic then (staticValueOf casts tag.type value).map (neuTagSetStaticValue tag) else none

def neuJsonDecodeValue (casts : CastOps) (jval : Json) : Decoded NeuJsonValue :=
  decodeAs casts jval (resolved .undefine jval)

def neuTagLoadStaticValue (j : AnyJansson) (casts : CastOps) (tag : NeuDatatag)
    (text : Option CStr) : Decoded NeuDatatag :=
  if tag.isStatic then
    match text.bind j.loadsAny with
    | none => .error .failed
    | some jval => do
      let value ← neuJsonDecodeValue casts jval
      match neuTagSetStaticValueJson casts tag value with
      | some tag => .ok tag
      | none => .error .failed
  else .error .failed

/- Rows. -/

/-- A row of `tags`. NaN is bound as NULL. -/
structure TagRow where
  driverName : CStr
  groupName : CStr
  name : CStr
  address : CStr
  attributes : Nat
  precision : UInt8
  type : NeuType
  decimal : Option Nat
  description : CStr
  value : Option CStr

def TagRow.key (row : TagRow) : CStr × CStr × CStr := (row.driverName, row.groupName, row.name)

def rowOfTag (j : AnyJansson) (casts : CastOps) (driver group : CStr) (tag : NeuDatatag) :
    TagRow where
  driverName := driver
  groupName := group
  name := tag.name
  address := tag.address
  attributes := tag.attributes
  precision := tag.precision
  type := tag.type
  decimal := if Ieee.binary64.isNan tag.decimal then none else some tag.decimal
  description := tag.description
  value := neuTagDumpStaticValue j casts tag

/-- The rows in the order of their ids. In a transaction `saved` is what a ROLLBACK restores. -/
structure TagTable where
  rows : List TagRow
  saved : Option (List TagRow)

/-- The key is unique, and `decimal` is not NULL. `checks` are the CHECKs and the foreign key. -/
def insertRow (checks : TagRow → Bool) (rows : List TagRow) (row : TagRow) : Option (List TagRow) :=
  if rows.any (fun old => old.key = row.key) || row.decimal.isNone || !checks row then none
  else some (rows ++ [row])

namespace TagTable

section
variable (j : AnyJansson) (casts : CastOps) (checks : TagRow → Bool) (driver group : CStr)

def putTags (runs : Nat → Bool) : Nat → List NeuDatatag → List TagRow → List TagRow × Bool
  | _, [], rows => (rows, true)
  | i, tag :: rest, rows =>
    match if runs i then insertRow checks rows (rowOfTag j casts driver group tag) else none with
    | some rows => putTags runs (i + 1) rest rows
    | none => (rows, false)

def neuPersisterStoreTags (table : TagTable) (tags : List NeuDatatag) (out : StoreTagsOutcome) :
    TagTable × Int :=
  if table.saved.isSome || !out.begin then (table, NEU_ERR_EINTERNAL)
  else
    let put := if out.prepare then putTags j casts checks driver group out.runs 0 tags table.rows
      else (table.rows, false)
    if put.2 && out.commit then ({ table with rows := put.1 }, 0)
    else if out.rollback then (table, NEU_ERR_EINTERNAL)
    else (⟨put.1, some table.rows⟩, NEU_ERR_EINTERNAL)

/-- Whether the query can be prepared and bound, and at which row a step of it fails. -/
structure LoadTagsOutcome where
  prepare : Bool
  failsAt : Option Nat

def tagOfRow (row : TagRow) : NeuDatatag where
  name := row.name
  address := row.address
  attributes := row.attributes
  type := row.type
  precision := row.precision
  decimal := row.decimal.getD 0
  description := row.description
  option := Block.zero
  staticValue := none

/-- That a value cannot be loaded is not noticed. -/
def loadRow (row : TagRow) : Decoded NeuDatatag :=
  if (tagOfRow row).isStatic then
    match neuTagLoadStaticValue j casts (tagOfRow row) row.value with
    | .ok tag => .ok tag
    | .error .failed => .ok (tagOfRow row)
    | .error .crashed => .error .crashed
  else .ok (tagOfRow row)

/-- A step that fails ends the list, and that is no failure. -/
def collectTagInfo (rows : List TagRow) (failsAt : Option Nat) : Decoded (List NeuDatatag) :=
  match failsAt with
  | none => rows.mapM (loadRow j casts)
  | some n => (rows.take n).mapM (loadRow j casts)

def neuPersisterLoadTags (table : TagTable) (out : LoadTagsOutcome) : Decoded (List NeuDatatag) :=
  if out.prepare then
    collectTagInfo j casts
      (table.rows.filter fun row => row.driverName = driver && row.groupName = group) out.failsAt
  else .error .failed

end

end TagTable

/- One value, dumped and loaded. -/

section
variable {j : AnyJansson} {casts : CastOps}

theorem staticJson_element (value : ValueU) (type : NeuType) :
    staticJson j.toJansson casts value type =
      elementJson j.toJansson casts (jsonOfStaticValue value type) := by
  cases type <;> rfl

theorem taken_json {type : NeuType} {given : NeuJsonValue} {value : ValueU}
    (taken : staticValueOf casts type given = some value) :
    (staticJson j.toJansson casts value type).isSome =
      valueRestorable j.toJansson casts type (some value) := by
  cases type with
  | float =>
    cases special : Ieee.binary64.special (casts.ofFloat value.f32) <;>
      simp [staticJson, jsonReal, valueRestorable, special]
  | double =>
    cases special : Ieee.binary64.special value.d64 <;>
      simp [staticJson, jsonReal, valueRestorable, special]
  | string =>
    cases plain : j.utf8 (strOf value) <;> simp [staticJson, jsonString, valueRestorable, plain]
  | bytes | error | ptr | unlisted => cases given <;> cases taken
  | _ => rfl

end

/-- The value of a static tag was set by a request, if it has one. -/
def ValueGiven (casts : CastOps) (tag : NeuDatatag) : Prop :=
  tag.isStatic = true → ∀ value, tag.staticValue = some value →
    ∃ before given, neuTagSetStaticValueJson casts before given = some tag ∧
      ∀ text, given = .str text → Bytewise text

/-- The text of a value is read as the value. -/
def PrintsValue (j : AnyJansson) (casts : CastOps) (tag : NeuDatatag) : Prop :=
  ∀ value json, tag.staticValue = some value →
    staticJson j.toJansson casts value tag.type = some json →
    ∃ text, j.dumpsAny json = some text ∧ j.loadsAny text = some json

/-- A floating value is finite, and a text is UTF-8 as far as it is kept. -/
def KeepsValue (j : Jansson) (casts : CastOps) (tag : NeuDatatag) : Prop :=
  tag.isStatic = true → ∀ value, tag.staticValue = some value →
    valueRestorable j casts tag.type (some value) = true

structure LoadedAs (tag loaded : NeuDatatag) : Prop where
  name : loaded.name = tag.name
  address : loaded.address = tag.address
  attributes : loaded.attributes = tag.attributes
  precision : loaded.precision = tag.precision
  type : loaded.type = tag.type
  decimal : loaded.decimal = tag.decimal
  description : loaded.description = tag.description
  staticValue : tag.isStatic = true → loaded.staticValue = tag.staticValue

namespace TagTable

section
variable {j : AnyJansson} {casts : CastOps} {driver group : CStr} {tag : NeuDatatag}

theorem set_taken {before : NeuDatatag} {given : NeuJsonValue}
    (set : neuTagSetStaticValueJson casts before given = some tag) :
    staticValueOf casts tag.type given = tag.staticValue := by
  unfold neuTagSetStaticValueJson at set
  obtain ⟨static, stored⟩ := Option.ite_none_right_eq_some.mp set
  obtain ⟨value, taken, held⟩ := Option.map_eq_some_iff.mp stored
  have marked : neuTagAttributeTest before NEU_ATTRIBUTE_STATIC = true := static
  rw [neuTagSetStaticValue, if_pos marked] at held
  subst held
  exact taken

theorem load_taken (static : tag.isStatic = true) {text : CStr} {jval : Json}
    {read : NeuJsonValue} {value : ValueU} (loaded : j.loadsAny text = some jval)
    (found : neuJsonDecodeValue casts jval = .ok read)
    (taken : staticValueOf casts tag.type read = some value) :
    neuTagLoadStaticValue j casts tag (some text) = .ok { tag with staticValue := some value } := by
  have marked : neuTagAttributeTest tag NEU_ATTRIBUTE_STATIC = true := static
  rw [neuTagLoadStaticValue, if_pos static, Option.bind_some, loaded]
  simp only [found, decoded_bind, neuTagSetStaticValueJson, static, if_true, taken, Option.map_some,
    neuTagSetStaticValue, marked]

theorem value_loaded (laws : CastLaws casts) (given : ValueGiven casts tag)
    (prints : PrintsValue j casts tag) (static : tag.isStatic = true) {value : ValueU}
    (held : tag.staticValue = some value)
    (restorable : valueRestorable j.toJansson casts tag.type (some value) = true) :
    loadRow j casts (rowOfTag j casts driver group tag) =
      .ok { tagOfRow (rowOfTag j casts driver group tag) with staticValue := some value } := by
  obtain ⟨before, json, set, bytewise⟩ := given static value held
  have taken : staticValueOf casts tag.type json = some value := (set_taken set).trans held
  obtain ⟨read, decoded, -, same⟩ := accepted_readsBack (j := j.toJansson) laws taken bytewise
  have expressed := (taken_json (j := j) taken).trans restorable
  obtain ⟨encoded, dumped⟩ := Option.isSome_iff_exists.mp expressed
  obtain ⟨text, printed, loaded⟩ := prints value encoded held dumped
  have column : (rowOfTag j casts driver group tag).value = some text := by
    have shown : neuTagGetStaticValue tag = some value := (if_pos static).trans held
    simp only [rowOfTag, neuTagDumpStaticValue, shown, Option.bind_some, dumped, printed]
  have element : elementJson j.toJansson casts (jsonOfStaticValue value tag.type) = some encoded :=
    (staticJson_element value tag.type).symm.trans dumped
  have found : neuJsonDecodeValue casts encoded = .ok read := by
    rw [heldValue, Option.map_some, Option.getD_some, readBack, element] at decoded
    exact decoded
  have marked : (tagOfRow (rowOfTag j casts driver group tag)).isStatic = true := static
  have again := load_taken marked loaded found (same restorable)
  rw [loadRow, if_pos marked, column, again]

theorem value_missing (none : neuTagDumpStaticValue j casts tag = none) :
    loadRow j casts (rowOfTag j casts driver group tag) =
      .ok (tagOfRow (rowOfTag j casts driver group tag)) := by
  have column : (rowOfTag j casts driver group tag).value = Option.none := none
  rw [loadRow, column]
  cases static : (tagOfRow (rowOfTag j casts driver group tag)).isStatic with
  | false => rfl
  | true => simp [neuTagLoadStaticValue, static]

theorem loadedAs_iff (number : Ieee.binary64.isNan tag.decimal = false) {held : Option ValueU} :
    LoadedAs tag { tagOfRow (rowOfTag j casts driver group tag) with staticValue := held } ↔
      (tag.isStatic = true → held = tag.staticValue) := by
  constructor
  · exact LoadedAs.staticValue
  · intro same
    have decimal : (rowOfTag j casts driver group tag).decimal = some tag.decimal := by
      simp [rowOfTag, number]
    exact ⟨rfl, rfl, rfl, rfl, rfl, by rw [tagOfRow, decimal]; rfl, rfl, same⟩

theorem missing_loaded (number : Ieee.binary64.isNan tag.decimal = false)
    (unset : neuTagDumpStaticValue j casts tag = none) :
    ∃ loaded, loadRow j casts (rowOfTag j casts driver group tag) = .ok loaded ∧
      (LoadedAs tag loaded ↔ (tag.isStatic = true → tag.staticValue = none)) := by
  refine ⟨_, value_missing unset, (loadedAs_iff number).trans ?_⟩
  exact forall_congr' fun _ => eq_comm

theorem dump_unset (unset : neuTagGetStaticValue tag = none) :
    neuTagDumpStaticValue j casts tag = none := by
  rw [neuTagDumpStaticValue, unset, Option.bind_none]

/-- One row: the tag is loaded, and as it was exactly when its value can be restored. -/
theorem row_loaded (laws : CastLaws casts) (given : ValueGiven casts tag)
    (prints : PrintsValue j casts tag) (number : Ieee.binary64.isNan tag.decimal = false) :
    ∃ loaded, loadRow j casts (rowOfTag j casts driver group tag) = .ok loaded ∧
      (LoadedAs tag loaded ↔ KeepsValue j.toJansson casts tag) := by
  cases static : tag.isStatic with
  | false =>
    have unset : neuTagGetStaticValue tag = none :=
      if_neg (by simpa [NeuDatatag.isStatic] using static)
    obtain ⟨loaded, read, same⟩ := missing_loaded number (dump_unset unset)
    refine ⟨loaded, read, same.trans ?_⟩
    simp [KeepsValue, static]
  | true =>
    have shown : neuTagGetStaticValue tag = tag.staticValue := if_pos static
    cases held : tag.staticValue with
    | none =>
      obtain ⟨loaded, read, same⟩ := missing_loaded number (dump_unset (shown.trans held))
      refine ⟨loaded, read, same.trans ?_⟩
      simp [KeepsValue, held]
    | some value =>
      obtain ⟨before, json, set, -⟩ := given static value held
      have expressed := taken_json (j := j) ((set_taken set).trans held)
      cases restorable : valueRestorable j.toJansson casts tag.type (some value) with
      | true =>
        refine ⟨_, value_loaded laws given prints static held restorable, ?_⟩
        rw [loadedAs_iff number]
        simp [KeepsValue, static, held, restorable]
      | false =>
        have unset : neuTagDumpStaticValue j casts tag = none := by
          rw [restorable, Option.isSome_eq_false_iff, Option.isNone_iff_eq_none] at expressed
          rw [neuTagDumpStaticValue, shown, held, Option.bind_some, expressed, Option.bind_none]
        obtain ⟨loaded, read, same⟩ := missing_loaded number unset
        refine ⟨loaded, read, same.trans ?_⟩
        simp [KeepsValue, static, held, restorable]

/- The tables. -/

theorem putTags_rows {checks : TagRow → Bool} {runs : Nat → Bool} {i : Nat} {tags : List NeuDatatag}
    {rows : List TagRow} (all : (putTags j casts checks driver group runs i tags rows).2 = true) :
    (putTags j casts checks driver group runs i tags rows).1 =
        rows ++ tags.map (rowOfTag j casts driver group) ∧
      ∀ tag ∈ tags, Ieee.binary64.isNan tag.decimal = false := by
  induction tags generalizing i rows with
  | nil => exact ⟨(List.append_nil rows).symm, List.forall_mem_nil _⟩
  | cons tag rest ih =>
    unfold putTags at all ⊢
    split at all
    · next next inserted =>
      obtain ⟨put, numbers⟩ := ih all
      have ran := (Option.ite_none_right_eq_some.mp inserted).2
      unfold insertRow at ran
      obtain ⟨free, added⟩ := Option.ite_none_left_eq_some.mp ran
      constructor
      · rw [put, ← Option.some.inj added, List.map_cons, List.append_assoc, List.singleton_append]
      · apply List.forall_mem_cons.mpr ⟨?_, numbers⟩
        cases number : Ieee.binary64.isNan tag.decimal with
        | false => rfl
        | true => simp [rowOfTag, number] at free
    · cases all

theorem storeTags_rows {checks : TagRow → Bool} {table : TagTable} {tags : List NeuDatatag}
    {out : StoreTagsOutcome}
    (stored : (neuPersisterStoreTags j casts checks driver group table tags out).2 = 0) :
    (neuPersisterStoreTags j casts checks driver group table tags out).1.rows =
        table.rows ++ tags.map (rowOfTag j casts driver group) ∧
      ∀ tag ∈ tags, Ieee.binary64.isNan tag.decimal = false := by
  unfold neuPersisterStoreTags at stored ⊢
  by_cases ready : (table.saved.isSome || !out.begin) = true
  · rw [if_pos ready] at stored
    cases stored
  rw [if_neg ready] at stored ⊢
  by_cases prepared : out.prepare = true
  · simp only [prepared, if_true] at stored ⊢
    by_cases done : ((putTags j casts checks driver group out.runs 0 tags table.rows).2 &&
        out.commit) = true
    · rw [if_pos done]
      exact putTags_rows (Bool.and_eq_true_iff.mp done).1
    · rw [if_neg done] at stored
      split at stored <;> cases stored
  · simp only [prepared, Bool.false_and, Bool.false_eq_true, if_false] at stored
    split at stored <;> cases stored

end

end TagTable

/-- A group that is stored and loaded: the tags are the same, in their order, exactly when every
static value can be restored. -/
theorem tags_persisted (j : AnyJansson) (casts : CastOps) (laws : CastLaws casts)
    (checks : TagRow → Bool) (table : TagTable) (driver group : CStr) (tags : List NeuDatatag)
    (stored : StoreTagsOutcome) (given : ∀ tag ∈ tags, ValueGiven casts tag)
    (prints : ∀ tag ∈ tags, PrintsValue j casts tag)
    (empty : ∀ row ∈ table.rows, ¬ (row.driverName = driver ∧ row.groupName = group))
    (success : (table.neuPersisterStoreTags j casts checks driver group tags stored).2 = 0) :
    (∃ loaded,
        (table.neuPersisterStoreTags j casts checks driver group tags stored).1.neuPersisterLoadTags
          j casts driver group ⟨true, none⟩ = .ok loaded ∧ List.Forall₂ LoadedAs tags loaded) ↔
      ∀ tag ∈ tags, KeepsValue j.toJansson casts tag := by
  obtain ⟨rows, numbers⟩ := TagTable.storeTags_rows success
  have others : table.rows.filter
      (fun row => row.driverName = driver && row.groupName = group) = [] := by
    apply List.filter_eq_nil_iff.mpr
    intro row inside
    simpa using empty row inside
  have own : (tags.map (rowOfTag j casts driver group)).filter
      (fun row => row.driverName = driver && row.groupName = group) =
      tags.map (rowOfTag j casts driver group) := by
    apply List.filter_eq_self.mpr
    intro row inside
    obtain ⟨tag, -, same⟩ := List.mem_map.mp inside
    subst same
    simp [rowOfTag]
  have one : ∀ tag ∈ tags, ∃ loaded,
      TagTable.loadRow j casts (rowOfTag j casts driver group tag) = .ok loaded ∧
        (LoadedAs tag loaded ↔ KeepsValue j.toJansson casts tag) := fun tag inside =>
    TagTable.row_loaded laws (given tag inside) (prints tag inside) (numbers tag inside)
  obtain ⟨loaded, decoded, each⟩ := mapM_each _ one
  rw [TagTable.neuPersisterLoadTags, if_pos rfl, rows, List.filter_append, others, own,
    List.nil_append, TagTable.collectTagInfo, decoded, ← forall₂_all each]
  constructor
  · rintro ⟨other, same, reloaded⟩
    cases same
    exact reloaded
  · exact fun reloaded => ⟨loaded, rfl, reloaded⟩

def numberJansson : AnyJansson where
  utf8 text := text.chars.all fun c => c.toNat < 128
  loads _ := none
  dumps _ := none
  dumpsAny
    | .integer n => if n = -1 then some (.lit "-1") else none
    | .real bits => if bits = 0x3ff8000000000000 then some (.lit "1.5") else none
    | _ => none
  loadsAny text :=
    if text = .lit "-1" then some (.integer (-1))
    else if text = .lit "1.5" then some (.real 0x3ff8000000000000)
    else none

def presetTag (name : String) (type : NeuType) (given : NeuJsonValue) : NeuDatatag :=
  ⟨.lit name, .lit "1!400001", NEU_ATTRIBUTE_READ ||| NEU_ATTRIBUTE_STATIC, type, 0, 0, .empty,
    Block.zero, staticValueOf ieeeCasts type given⟩

theorem presetTag_given (name : String) (type : NeuType) {given : NeuJsonValue}
    (bytewise : ∀ text, given = .str text → Bytewise text) :
    ValueGiven ieeeCasts (presetTag name type given) := by
  intro static value held
  have taken : staticValueOf ieeeCasts type given = some value := held
  refine ⟨{ presetTag name type given with staticValue := none }, given, ?_, bytewise⟩
  have bits : (NEU_ATTRIBUTE_READ ||| NEU_ATTRIBUTE_STATIC) &&& NEU_ATTRIBUTE_STATIC =
    NEU_ATTRIBUTE_STATIC := by decide
  have marked : neuTagAttributeTest { presetTag name type given with staticValue := none }
    NEU_ATTRIBUTE_STATIC = true := decide_eq_true bits
  rw [neuTagSetStaticValueJson, NeuDatatag.isStatic, if_pos marked]
  simp only [presetTag, taken, Option.map_some, neuTagSetStaticValue] at marked ⊢
  rw [if_pos marked]

theorem tags_persisted_numbers :
    ∃ loaded, ((TagTable.mk [] none).neuPersisterStoreTags numberJansson ieeeCasts (fun _ => true)
          (.lit "modbus") (.lit "a")
          [presetTag "n" .uint64 (.int (-1)), presetTag "x" .float (.double 0x3ff8000000000000)]
          ⟨true, true, fun _ => true, true, true⟩).1.neuPersisterLoadTags numberJansson ieeeCasts
        (.lit "modbus") (.lit "a") ⟨true, none⟩ = .ok loaded ∧
      List.Forall₂ LoadedAs
        [presetTag "n" .uint64 (.int (-1)), presetTag "x" .float (.double 0x3ff8000000000000)]
        loaded := by
  apply (tags_persisted numberJansson ieeeCasts ieeeCasts_laws.toCastLaws (fun _ => true) ⟨[], none⟩
    (.lit "modbus") (.lit "a") _ ⟨true, true, fun _ => true, true, true⟩ ?_ ?_ ?_ rfl).mpr ?_
  · rw [List.forall_mem_cons, List.forall_mem_singleton]
    exact ⟨presetTag_given _ _ (fun _ other => nomatch other),
      presetTag_given _ _ (fun _ other => nomatch other)⟩
  · rw [List.forall_mem_cons, List.forall_mem_singleton]
    constructor
    · intro value json held dumped
      cases held
      have number : (frontOf 8 ((-1 : Int) % 2 ^ 64).toNat).signed 8 = -1 := by decide +kernel
      have whole : some (.integer ((frontOf 8 ((-1 : Int) % 2 ^ 64).toNat).signed 8)) = some json :=
        dumped
      rw [number] at whole
      cases whole
      exact ⟨_, rfl, rfl⟩
    · intro value json held dumped
      cases held
      have whole : some (.real 0x3ff8000000000000) = some json := dumped
      cases whole
      exact ⟨_, rfl, rfl⟩
  · exact List.forall_mem_nil _
  · rw [List.forall_mem_cons, List.forall_mem_singleton]
    constructor
    · intro _ value held
      cases held
      rfl
    · intro _ value held
      cases held
      rfl

/-- A number beyond the range of float is stored as an infinity, which is dropped from the row
without an error. -/
theorem overflow_float_lost :
    ValueGiven ieeeCasts (presetTag "x" .float (.double 0x7e37e43c8800759c)) ∧
      PrintsValue numberJansson ieeeCasts (presetTag "x" .float (.double 0x7e37e43c8800759c)) ∧
      ((TagTable.mk [] none).neuPersisterStoreTags numberJansson ieeeCasts (fun _ => true)
        (.lit "modbus") (.lit "a") [presetTag "x" .float (.double 0x7e37e43c8800759c)]
        ⟨true, true, fun _ => true, true, true⟩).2 = 0 ∧
      ¬ ∃ loaded, ((TagTable.mk [] none).neuPersisterStoreTags numberJansson ieeeCasts
            (fun _ => true) (.lit "modbus") (.lit "a")
            [presetTag "x" .float (.double 0x7e37e43c8800759c)]
            ⟨true, true, fun _ => true, true, true⟩).1.neuPersisterLoadTags numberJansson ieeeCasts
          (.lit "modbus") (.lit "a") ⟨true, none⟩ = .ok loaded ∧
        List.Forall₂ LoadedAs [presetTag "x" .float (.double 0x7e37e43c8800759c)] loaded := by
  refine ⟨presetTag_given _ _ (fun _ other => nomatch other), ?_, rfl, ?_⟩
  · intro value json held dumped
    cases held
    have none : none = some json := dumped
    cases none
  · rintro ⟨loaded, decoded, same⟩
    cases decoded
    obtain ⟨first, -⟩ := List.forall₂_cons.mp same
    cases first.staticValue rfl

end Cpm
