import Cpm.Driver.Rebuild

/-! A write of a static tag: what it leaves in the cache and in the table of its group. -/
namespace Cpm

open Lib

def GroupT.withStatic (g : GroupT) (tag : NeuDatatag) (u : ValueU) (now : Int) : GroupT :=
  let given := { tag with staticValue := some u }
  { g with group := { g.group with tags := g.group.tags.insert tag.name given, timestamp := now } }

/-- What the write leaves, of a value that `fix_value` has put in order. -/
structure Wrote (driver written : NeuAdapterDriver) (group : CStr) (g : GroupT) (tag : NeuDatatag)
    (fixed : NeuDvalue) (timestamp now : Int) : Prop where
  orderly : Orderly written
  adapter : written.adapter = driver.adapter
  stored : findGroup written group = some (g.withStatic tag fixed.value now)
  others : ∀ names : CStr × CStr, names ≠ (group, tag.name) →
    mapOf written.cache names = mapOf driver.cache names
  absent : mapOf driver.cache (group, tag.name) = none →
    mapOf written.cache (group, tag.name) = none
  entry : ∀ e, mapOf driver.cache (group, tag.name) = some e → ∃ changed,
    mapOf written.cache (group, tag.name) = some ⟨fixed.type, payload fixed.type fixed.value [],
      e.precision, timestamp, metasOf [], changed⟩

section
variable {fl : FloatOps} {driver : NeuAdapterDriver} {group cmdTag : CStr} {g : GroupT}
  {tag : NeuDatatag}

def fixedValue (fl : FloatOps) (tag : NeuDatatag) (value : NeuDvalue) : Option NeuDvalue :=
  fixValue fl tag value.type (calTagDecimal fl tag (intToDouble fl tag value))

theorem fixedValue_plain {value : DecodedValue} {fixed : NeuDvalue}
    (done : fixedValue fl tag value.value = some fixed) :
    tag.type ≠ .ptr ∧ fixed.type ≠ .ptr ∧ fixed.value.bytesLength ≤ NEU_VALUE_SIZE := by
  obtain ⟨ptr, plain, length⟩ := fixValue_plain done
  obtain ⟨decimalType, decimalLength⟩ := calTagDecimal_plain fl tag (intToDouble fl tag value.value)
  obtain ⟨doubleType, doubleLength⟩ := intToDouble_plain fl tag value.value
  obtain ⟨notPtr, short⟩ := value.decoded
  rw [decimalType, doubleType] at plain
  rw [decimalLength, doubleLength] at length
  exact ⟨ptr, plain notPtr, length ▸ short⟩

theorem writeStatic_wrote (band : DeadBand) {fixed : NeuDvalue} (orderly : Orderly driver)
    (found : findGroup driver group = some g) (has : neuGroupFindTag g.group cmdTag = some tag)
    (static : neuTagAttributeTest tag NEU_ATTRIBUTE_STATIC = true) (orderable : tag.type ≠ .ptr)
    (plain : fixed.type ≠ .ptr) (short : fixed.value.bytesLength ≤ NEU_VALUE_SIZE) (req : Nat)
    (timestamp now : Int) :
    ∃ written, writeStatic band driver req group g tag fixed timestamp now = some written ∧
      Wrote driver written group g tag fixed timestamp now := by
  obtain ⟨rfl, fitsName⟩ := orderly.named group g found
  have inside : tag ∈ g.group.tags.values := Table.mem_values.2 ⟨cmdTag, has⟩
  have fits := orderly.fits g.name g found tag (List.mem_append_left _ inside)
  have keyed : Keyed g.group := orderly.keyed g.name g found
  have named : tag.name = cmdTag := keyed cmdTag tag has
  let v : CallerValue := ⟨fixed, [], fun _ => short, fun is => absurd is plain,
    fun is => absurd is plain⟩
  let ref : TagRef := ⟨g.name, tag.name, fitsName, fits.name⟩
  have safe : CacheSafe driver.cache (.update ref timestamp v ⟨[], Nat.zero_le _⟩ false 0) := by
    intro _ _ is
    exact absurd is plain
  obtain ⟨cache', seen, stepped, inv, _, effect⟩ := update_done band orderly.inv safe
  obtain ⟨_, updated, same⟩ := Option.map_eq_some_iff.1 stepped
  cases same
  have updates : neuDriverCacheUpdate band driver.cache g.name tag.name timestamp fixed [] [] 0 =
      some cache' := updated
  have given : neuTagSetStaticValue tag fixed.value = { tag with staticValue := some fixed.value } :=
    if_pos static
  have present : (g.group.tags.find tag.name).isSome = true := by
    rw [keyed_find keyed inside]
    rfl
  have edits : (neuGroupUpdateTag g.group (neuTagSetStaticValue tag fixed.value) now).1 =
      (g.withStatic tag fixed.value now).group := by
    rw [given, neuGroupUpdateTag, if_pos present]
    rfl
  have tagged := setStatic_fits fits orderable short
  let edited := { driver with cache := cache' }.setGroup g.name (g.withStatic tag fixed.value now)
  let written := respond edited req NEU_ERR_SUCCESS
  have change : Change g.name (fun _ => True) { driver with cache := cache' } edited := by
    have edit : Edited (fun _ => True) g.group
        (neuGroupUpdateTag g.group (neuTagSetStaticValue tag fixed.value) now).1 :=
      updateTag_edited tagged trivial
    rw [edits] at edit
    exact .edit found edit
  have fitting : Fitting cache' driver.groups := ⟨inv, orderly.named, orderly.fits⟩
  have fitted : Fitting edited.cache edited.groups := change_fitting fitting change
  have tables : EachGroup KeyedGroup { driver with cache := cache' } := orderly.keyed
  have keptNow : Orderly written := ⟨fitted,
    each_keyed_insert tables g (keyed_insert keyed { tag with staticValue := some fixed.value } now)⟩
  refine ⟨written, ?_, keptNow, rfl, ?_, fun names away => ?_, fun nothing => ?_,
    fun e here => ?_⟩
  · simp only [writeStatic, updates, Option.bind_eq_bind, Option.bind_some, edits]
    rfl
  · exact (findGroup_setGroup _ g.name g.name _).trans (if_pos rfl)
  · split at effect
    · exact congrFun effect names
    · obtain ⟨changed, _, mapped⟩ := effect
      exact (congrFun mapped names).trans (Function.update_of_ne away ..)
  · have missing : driver.cache.table.find (keyOf ref.group ref.tag) = none := by
      rw [mapOf, Option.map_eq_none_iff] at nothing
      exact nothing
    simp only [missing] at effect
    exact (congrFun effect ref.names).trans nothing
  · obtain ⟨elem, find, rfl⟩ := Option.map_eq_some_iff.1 here
    have finds : driver.cache.table.find (keyOf ref.group ref.tag) = some elem := find
    simp only [finds] at effect
    obtain ⟨changed, _, mapped⟩ := effect
    exact ⟨_, (congrFun mapped ref.names).trans (Function.update_self ..)⟩

theorem writeTag_wrote {value : DecodedValue} {fixed : NeuDvalue} (orderly : Orderly driver)
    (running : driver.adapter.state = .running) (found : findGroup driver group = some g)
    (has : neuGroupFindTag g.group cmdTag = some tag)
    (static : neuTagAttributeTest tag NEU_ATTRIBUTE_STATIC = true)
    (writable : neuTagAttributeTest tag NEU_ATTRIBUTE_WRITE = true)
    (done : fixedValue fl tag value.value = some fixed) (req : Nat) (timestamp now : Int) :
    ∃ written, neuAdapterDriverWriteTag fl driver req group cmdTag value.value timestamp now =
        some written ∧ Wrote driver written group g tag fixed timestamp now := by
  obtain ⟨orderable, plain, short⟩ := fixedValue_plain done
  obtain ⟨written, wrote, leaves⟩ :=
    writeStatic_wrote fl.band orderly found has static orderable plain short req timestamp now
  refine ⟨written, ?_, leaves⟩
  unfold fixedValue at done
  simp [neuAdapterDriverWriteTag, running, found, has, writable, static, done, wrote]

end

end Cpm
