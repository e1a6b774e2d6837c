import Cpm.Driver.Answer
import Cpm.Driver.Groups

/-! The tables of tags. Whatever a driver is asked to do, a tag stands under its own name. -/
namespace Cpm

open Lib Lib.Run

/-- A tag stands in the table of its group under its own name. -/
def Keyed (group : NeuGroup) : Prop := ∀ key tag, group.tags.find key = some tag → tag.name = key

def KeyedGroup (_ : CStr) (g : GroupT) : Prop := Keyed g.group

section
variable {group : NeuGroup} {tag other : NeuDatatag}

theorem keyed_apart (keyed : Keyed group) (member : tag ∈ group.tags.values)
    (member' : other ∈ group.tags.values) (name : tag.name = other.name) : tag = other := by
  obtain ⟨key, found⟩ := Table.mem_values.1 member
  obtain ⟨key', found'⟩ := Table.mem_values.1 member'
  have same : key = key' := by rw [← keyed key tag found, ← keyed key' other found', name]
  subst same
  exact Option.some.inj (found.symm.trans found')

theorem keyed_find (keyed : Keyed group) (member : tag ∈ group.tags.values) :
    group.tags.find tag.name = some tag := by
  obtain ⟨key, found⟩ := Table.mem_values.1 member
  rw [keyed key tag found, found]

theorem keyed_distinct (keyed : Keyed group) :
    ((neuGroupGetReadTag group).map NeuDatatag.name).Nodup := by
  have keys : group.tags.values.map NeuDatatag.name = group.tags.keys := by
    rw [Table.values, Table.keys, List.map_map]
    exact List.map_congr_left fun entry inside =>
      keyed entry.1 entry.2 (Table.find_eq_some.2 inside)
  have nodup : (group.tags.values.map NeuDatatag.name).Nodup := keys ▸ group.tags.nodup
  exact nodup.sublist (List.filter_sublist.map _)

theorem keyed_insert (keyed : Keyed group) (tag : NeuDatatag) (timestamp : Int) :
    Keyed { group with tags := group.tags.insert tag.name tag, timestamp } := by
  intro key other found
  obtain ⟨rfl, rfl⟩ | ⟨_, before⟩ := Table.find_insert_some found
  · rfl
  · exact keyed key other before

theorem addTag_keyed (keyed : Keyed group) (tag : NeuDatatag) (now : Int) :
    Keyed (neuGroupAddTag group tag now).1 := by
  unfold neuGroupAddTag
  split
  · exact keyed
  · exact keyed_insert keyed tag now

theorem updateTag_keyed (keyed : Keyed group) (tag : NeuDatatag) (now : Int) :
    Keyed (neuGroupUpdateTag group tag now).1 := by
  unfold neuGroupUpdateTag
  split
  · exact keyed_insert keyed tag now
  · exact keyed

theorem delTag_keyed (keyed : Keyed group) (name : CStr) (now : Int) :
    Keyed (neuGroupDelTag group name now).1 := by
  unfold neuGroupDelTag
  split
  · exact fun key tag found => keyed key tag (Table.find_erase_some.1 found).2
  · exact keyed

end

theorem keyed_closed : Closed KeyedGroup where
  new _ _ _ := fun _ _ found => by cases found
  setInterval _ _ _ keyed := keyed
  renamed _ _ _ keyed := keyed
  refreshed _ _ _ keyed same _ := by rwa [KeyedGroup, same]

theorem keyed_tags : TagsClosed KeyedGroup where
  new := keyed_closed.new
  addTag _ _ tag now keyed := addTag_keyed keyed tag now
  updateTag _ _ tag now keyed := updateTag_keyed keyed tag now
  delTag _ _ name now keyed := delTag_keyed keyed name now

/- The requests. -/

section
variable {driver driver' : NeuAdapterDriver} {group : CStr} {g : GroupT}

theorem each_keyed_insert {group' : NeuGroup} (each : EachGroup KeyedGroup driver) (g : GroupT)
    (keyed : Keyed group') :
    EachGroup KeyedGroup (driver.setGroup group { g with group := group' }) := by
  have new : KeyedGroup group { g with group := group' } := keyed
  exact each_insert each new

theorem groupStep_keyed {op : GroupOp} (each : EachGroup KeyedGroup driver)
    (stepped : groupStep driver op = some driver') : EachGroup KeyedGroup driver' := by
  apply groupStep_each keyed_closed each stepped
  intro edits
  obtain ⟨plugin, group, tags, now, rfl⟩ | ⟨plugin, group, tags, now, rfl⟩ |
    ⟨group, tags, now, rfl⟩ := editsTags_cases edits
  · cases stepped
    exact reqAddTag_each keyed_tags _ now each
  · cases stepped
    exact updateTagLoop_each keyed_tags _ now 0 each
  · cases stepped
    exact reqDelTag_each keyed_tags tags now 0 each

/- Writing. -/

theorem store_keyed (each : EachGroup KeyedGroup driver) (found : findGroup driver group = some g)
    (wtag : ToBeWriteTag) : EachGroup KeyedGroup (storeWriteTag driver group g wtag) := by
  have before : Keyed g.group := each group g found
  have new : KeyedGroup group { g with wtTags := g.wtTags ++ [wtag] } := before
  exact each_insert each new

theorem writeStatic_keyed {band : DeadBand} {tag : NeuDatatag} {value : NeuDvalue} {req : Nat}
    {timestamp now : Int}
    (each : EachGroup KeyedGroup driver) (found : findGroup driver group = some g)
    (wrote : writeStatic band driver req group g tag value timestamp now = some driver') :
    EachGroup KeyedGroup driver' := by
  obtain ⟨cache, _, same⟩ := Option.bind_eq_some_iff.1 wrote
  cases same
  have others : EachGroup KeyedGroup { driver with cache } := each
  have updated := updateTag_keyed (each group g found) (neuTagSetStaticValue tag value.value) now
  exact each_keyed_insert others g updated

theorem writeTag_keyed {fl : FloatOps} {req : Nat} {cmdTag : CStr} {value : NeuDvalue}
    {timestamp now : Int} (each : EachGroup KeyedGroup driver)
    (wrote : neuAdapterDriverWriteTag fl driver req group cmdTag value timestamp now = some driver') :
    EachGroup KeyedGroup driver' := by
  unfold neuAdapterDriverWriteTag at wrote
  split at wrote
  · cases wrote
    exact each
  split at wrote
  · cases wrote
    exact each
  next g found =>
  split at wrote
  · cases wrote
    exact each
  split at wrote
  · obtain ⟨fixed, _, further⟩ := Option.bind_eq_some_iff.1 wrote
    split at further
    · exact writeStatic_keyed each found further
    · cases further
      exact store_keyed each found _
  · cases wrote
    exact each

theorem writeTags_keyed {fl : FloatOps} {req : Nat} {tags : List (CStr × NeuDvalue)}
    (each : EachGroup KeyedGroup driver)
    (wrote : neuAdapterDriverWriteTags fl driver req group tags = some driver') :
    EachGroup KeyedGroup driver' := by
  unfold neuAdapterDriverWriteTags at wrote
  split at wrote
  · cases wrote
    exact each
  split at wrote
  · cases wrote
    exact each
  split at wrote
  · cases wrote
    exact each
  next g found =>
  obtain ⟨tvs, _, further⟩ := Option.bind_eq_some_iff.1 wrote
  simp only at further
  split at further
  · cases further
    exact each
  · cases further
    exact store_keyed each found _

theorem writeTick_keyed (each : EachGroup KeyedGroup driver) (name : CStr) :
    EachGroup KeyedGroup (writeCallback driver name) := by
  unfold writeCallback
  split
  · exact each
  next g found =>
  split
  · exact each
  · have before : Keyed g.group := each name g found
    have new : KeyedGroup name { g with wtTags := [] } := before
    exact each_insert each new

theorem uninitLoop_keyed (els : List GroupT) (each : EachGroup KeyedGroup driver) :
    EachGroup KeyedGroup (els.foldl (fun driver el =>
      neuAdapterDriverTryDelTag { driver with groups := driver.groups.erase el.name }
        (neuGroupTagSize el.group)) driver) := by
  induction els generalizing driver with
  | nil => exact each
  | cons el rest ih => exact ih (tryDelTag_each (each_erase each el.name) _)

theorem driverStep_keyed {fl : FloatOps} {op : DriverOp} (each : EachGroup KeyedGroup driver)
    (stepped : driverStep fl driver op = some driver') : EachGroup KeyedGroup driver' := by
  cases op with
  | manage op => exact groupStep_keyed each stepped
  | writeTag req group tag value timestamp now => exact writeTag_keyed each stepped
  | writeTags req group tags => exact writeTags_keyed each stepped
  | writeTick name =>
    cases stepped
    exact writeTick_keyed each name
  | start plugin =>
    cases stepped
    exact each
  | stop plugin =>
    cases stepped
    exact each
  | uninit =>
    cases stepped
    exact uninitLoop_keyed _ each

end

/-- Names and tags fit the cache, and the tables are in order. -/
structure Orderly (driver : NeuAdapterDriver) : Prop
    extends Fitting driver.cache driver.groups where
  keyed : EachGroup KeyedGroup driver

theorem Orderly.recached {driver : NeuAdapterDriver} (orderly : Orderly driver)
    {cache : NeuDriverCache} (inv : CacheInv cache) : Orderly { driver with cache } :=
  ⟨⟨inv, orderly.named, orderly.fits⟩, orderly.keyed⟩

/-- The tags that a group is read by have names that fit, each its own. -/
theorem Orderly.readTags {driver : NeuAdapterDriver} (orderly : Orderly driver) {name : CStr}
    {g : GroupT} (found : findGroup driver name = some g) : name.strlen < NEU_GROUP_NAME_LEN ∧
      (∀ tag ∈ neuGroupGetReadTag g.group, tag.name.strlen < NEU_TAG_NAME_LEN) ∧
      ((neuGroupGetReadTag g.group).map NeuDatatag.name).Nodup := by
  refine ⟨(orderly.named name g found).2, fun tag inside => ?_,
    keyed_distinct (orderly.keyed name g found)⟩
  have member := List.mem_append_left g.cachedTags (List.mem_of_mem_filter inside)
  exact (orderly.fits name g found tag member).name

theorem reached_orderly (fl : FloatOps) (adapter : NeuAdapter) (intfFuns : DriverIntfFuns)
    (ops : List DriverOp)
    (allowed : Along (driverStep fl) WriteAllowed (neuAdapterDriverCreate adapter intfFuns) ops) :
    ∃ driver, ops.foldlM (driverStep fl) (neuAdapterDriverCreate adapter intfFuns) = some driver ∧
      Orderly driver := by
  let inv (driver : NeuAdapterDriver) (sent : List Nat) : Prop :=
    Mailed driver sent ∧ EachGroup KeyedGroup driver
  have progress (driver : NeuAdapterDriver) (op : DriverOp) (past : List Nat)
      (holds : inv driver past) (meets : WriteAllowed driver op) :
      ∃ driver', driverStep fl driver op = some driver' ∧ inv driver' (past ++ op.requests) := by
    obtain ⟨driver', stepped, mailed⟩ := driverStep_mailed fl driver op past holds.1 meets
    exact ⟨driver', stepped, mailed, driverStep_keyed holds.2 stepped⟩
  have empty : EachGroup KeyedGroup (neuAdapterDriverCreate adapter intfFuns) := by
    intro name g found
    cases found
  obtain ⟨driver, ran, mailed, keyed⟩ :=
    ends_of_history progress ⟨create_mailed adapter intfFuns, empty⟩ allowed
  exact ⟨driver, ran, mailed.fitting, keyed⟩

end Cpm
