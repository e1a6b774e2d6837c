import Cpm.Driver.Read
import Cpm.Driver.Fitting

/-! The cache and the group table. The read tick rebuilds the entries of a group when its tags have
changed, and has to know what it entered the last time. -/
namespace Cpm

open Lib Relation

/-- The invariant: the keys of the cache are those of the tags that the groups' last ticks
entered, and these are the current ones unless the timestamps differ. -/
structure Agrees (cache : NeuDriverCache) (groups : Table CStr GroupT) : Prop
    extends Fitting cache groups where
  cached : ∀ key, key ∈ cache.table.keys ↔ ∃ name g, groups.find name = some g ∧
    ∃ tag ∈ g.cachedTags, key = keyOf name tag.name
  split : ∀ name g, groups.find name = some g → g.group.timestamp = g.timestamp →
    (g.staticTags, g.grp.tags) = neuGroupSplitStaticTags g.group

def entered (groups : Table CStr GroupT) (name : CStr) : List NeuDatatag :=
  ((groups.find name).map GroupT.cachedTags).getD []

theorem entered_of_find {groups : Table CStr GroupT} {name : CStr} {g : GroupT}
    (found : groups.find name = some g) : entered groups name = g.cachedTags := by
  rw [entered, found]
  rfl

section
variable {cache cache' : NeuDriverCache} {groups : Table CStr GroupT} {name : CStr} {g : GroupT}

theorem agrees_replace (agrees : Agrees cache groups) (fitting : Fitting cache' (groups.insert name g))
    (keys : ∀ key, key ∈ cache'.table.keys ↔
      (key ∈ cache.table.keys ∧ ∀ tag ∈ entered groups name, key ≠ keyOf name tag.name) ∨
        ∃ tag ∈ g.cachedTags, key = keyOf name tag.name)
    (split : g.group.timestamp = g.timestamp →
      (g.staticTags, g.grp.tags) = neuGroupSplitStaticTags g.group) :
    Agrees cache' (groups.insert name g) := by
  refine ⟨fitting, fun key => ?_, fun other h now => ?_⟩
  · rw [keys, agrees.cached]
    constructor
    · rintro (⟨⟨other, h, before, tag, member, rfl⟩, apart⟩ | rest)
      · have away : other ≠ name := by
          rintro rfl
          exact apart tag (entered_of_find before ▸ member) rfl
        exact ⟨other, h, by rw [Table.find_insert, if_neg away, before], tag, member, rfl⟩
      · exact ⟨name, g, by rw [Table.find_insert, if_pos rfl], rest⟩
    · rintro ⟨other, h, now, rest⟩
      obtain ⟨rfl, rfl⟩ | ⟨away, before⟩ := Table.find_insert_some now
      · exact .inr rest
      · obtain ⟨tag, member, rfl⟩ := rest
        refine .inl ⟨⟨other, h, before, tag, member, rfl⟩, fun _ _ same => ?_⟩
        have names : (other, tag.name) = (name, _) := keyOf_injective same
        exact away (congrArg Prod.fst names)
  · obtain ⟨rfl, rfl⟩ | ⟨_, before⟩ := Table.find_insert_some now
    · exact split
    · exact agrees.split other h before

theorem entered_cached (agrees : Agrees cache groups) {tag : NeuDatatag}
    (member : tag ∈ entered groups name) : keyOf name tag.name ∈ cache.table.keys := by
  unfold entered at member
  cases found : groups.find name with
  | none => simp [found] at member
  | some g =>
    rw [found] at member
    exact (agrees.cached _).2 ⟨name, g, found, tag, member, rfl⟩

theorem agrees_insert (agrees : Agrees cache groups) (fitting : Fitting cache (groups.insert name g))
    (same : g.cachedTags = entered groups name)
    (split : g.group.timestamp = g.timestamp →
      (g.staticTags, g.grp.tags) = neuGroupSplitStaticTags g.group) :
    Agrees cache (groups.insert name g) := by
  refine agrees_replace agrees fitting (fun key => ?_) split
  rw [same]
  constructor
  · intro here
    by_cases old : ∃ tag ∈ entered groups name, key = keyOf name tag.name
    · exact .inr old
    · exact .inl ⟨here, fun tag member equal => old ⟨tag, member, equal⟩⟩
  · rintro (⟨here, _⟩ | ⟨tag, member, rfl⟩)
    · exact here
    · exact entered_cached agrees member

theorem agrees_erase (agrees : Agrees cache groups) (inv : CacheInv cache')
    (keys : ∀ key, key ∈ cache'.table.keys ↔
      key ∈ cache.table.keys ∧ ∀ tag ∈ entered groups name, key ≠ keyOf name tag.name) :
    Agrees cache' (groups.erase name) := by
  refine ⟨agrees.erase inv name, fun key => ?_, fun other h now => ?_⟩
  · rw [keys, agrees.cached]
    constructor
    · rintro ⟨⟨other, h, before, tag, member, rfl⟩, apart⟩
      have away : other ≠ name := by
        rintro rfl
        exact apart tag (entered_of_find before ▸ member) rfl
      exact ⟨other, h, Table.find_erase_some.2 ⟨away, before⟩, tag, member, rfl⟩
    · rintro ⟨other, h, now, tag, member, rfl⟩
      obtain ⟨away, before⟩ := Table.find_erase_some.1 now
      refine ⟨⟨other, h, before, tag, member, rfl⟩, fun _ _ same => ?_⟩
      have names : (other, tag.name) = (name, _) := keyOf_injective same
      exact away (congrArg Prod.fst names)
  · exact agrees.split other h (Table.find_erase_some.1 now).2

end

structure DriverAgrees (driver : NeuAdapterDriver) : Prop where
  agrees : Agrees driver.cache driver.groups
  running : driver.adapter.state = .running

/- Requests about tags. A change of a group's tags shows in its timestamp. -/

/-- The state during a request on one group: the saved timestamp stays. -/
structure Editing (group : CStr) (saved : Int) (driver : NeuAdapterDriver) : Prop where
  agrees : DriverAgrees driver
  saved : savedTimestamp driver group = saved

theorem newGroup_agrees {driver : NeuAdapterDriver} {name : CStr} {interval : UInt32}
    (agrees : Agrees driver.cache driver.groups) (absent : findGroup driver name = none)
    (short : name.strlen < NEU_GROUP_NAME_LEN) :
    Agrees driver.cache (driver.groups.insert name (newGroup driver.serials name interval)) := by
  have nothing : driver.groups.find name = none := absent
  have empty : entered driver.groups name = [] := by
    rw [entered, nothing]
    rfl
  have fitting := agrees.insert agrees.inv rfl short (newGroup_fits driver.serials name interval)
  exact agrees_insert agrees fitting (by rw [empty]; rfl) fun _ => rfl

theorem edit_agrees {driver : NeuAdapterDriver} {name : CStr} {g : GroupT} {group' : NeuGroup}
    {saved : Int} (agrees : Agrees driver.cache driver.groups)
    (found : findGroup driver name = some g) (here : g.timestamp = saved)
    (edited : Edited (· ≠ saved) g.group group') :
    Agrees driver.cache (driver.groups.insert name { g with group := group' }) := by
  have fits := edited_fits (agrees.fits name g found) edited
  have fitting : Fitting driver.cache (driver.groups.insert name { g with group := group' }) :=
    agrees.replace agrees.inv found rfl fits
  have split := edited_split here edited (agrees.split name g found)
  exact agrees_insert agrees fitting (entered_of_find found).symm split

theorem change_editing {group : CStr} {saved : Int} {driver driver' : NeuAdapterDriver}
    (editing : Editing group saved driver) (change : Change group (· ≠ saved) driver driver') :
    Editing group saved driver' := by
  obtain ⟨⟨agrees, running⟩, same⟩ := editing
  have still : savedTimestamp driver' group = saved := (change_saved change).trans same
  cases change with
  | create interval absent short => exact ⟨⟨newGroup_agrees agrees absent short, running⟩, still⟩
  | edit found edited =>
    rw [savedTimestamp, found] at same
    exact ⟨⟨edit_agrees agrees found same edited, running⟩, still⟩
  | record quiet => exact ⟨⟨agrees, running⟩, still⟩
  | count tagCnt => exact ⟨⟨agrees, running⟩, still⟩

theorem changes_agrees {group : CStr} {driver driver' : NeuAdapterDriver}
    (agrees : DriverAgrees driver)
    (changes : Changes group (· ≠ savedTimestamp driver group) driver driver') :
    DriverAgrees driver' := by
  have editing : Editing group (savedTimestamp driver group) driver' := by
    induction changes with
    | refl => exact ⟨agrees, rfl⟩
    | tail _ change ih => exact change_editing ih change
  exact editing.agrees

/- Requests about groups. -/

theorem rename_agrees {driver : NeuAdapterDriver} {name : CStr} {newName : GroupName} {g : GroupT}
    {interval : UInt32} {copied : Bool} (agrees : Agrees driver.cache driver.groups)
    (found : findGroup driver name = some g) (renames : Renames driver name newName copied)
    (empty : entered driver.groups name = []) :
    Agrees driver.cache ((driver.groups.erase name).insert newName
      ((g.renamed newName).setInterval interval)) := by
  obtain ⟨different, _, absent, _⟩ := renames
  have others : Agrees driver.cache (driver.groups.erase name) :=
    agrees_erase agrees agrees.inv fun key => by rw [empty]; simp
  have nothing : (driver.groups.erase name).find newName = none := by
    rw [Table.find_erase, if_neg (Ne.symm different)]
    exact absent
  have gone : entered (driver.groups.erase name) newName = [] := by
    rw [entered, nothing]
    rfl
  have arrays : g.cachedTags = [] := (entered_of_find found).symm.trans empty
  have fitting : Fitting driver.cache ((driver.groups.erase name).insert newName
      ((g.renamed newName).setInterval interval)) :=
    others.insert others.inv rfl newName.property (agrees.fits name g found)
  exact agrees_insert others fitting (arrays.trans gone.symm) (agrees.split name g found)

theorem updateGroup_agrees {driver : NeuAdapterDriver} {name newName : GroupName}
    {interval : UInt32} {copied : Bool} (agrees : DriverAgrees driver)
    (clean : Renames driver name newName copied → entered driver.groups name = []) :
    DriverAgrees (neuAdapterDriverUpdateGroup driver name newName interval copied).1 := by
  obtain changes | ⟨g, interval', found, renames, same⟩ :=
    updateGroup_done (· ≠ savedTimestamp driver name) driver name newName interval copied
  · exact changes_agrees agrees changes
  · rw [same]
    exact ⟨rename_agrees agrees.agrees found renames (clean renames), agrees.running⟩

theorem delGroup_agrees {driver : NeuAdapterDriver} (name : GroupName)
    (agrees : DriverAgrees driver) :
    ∃ driver', groupStep driver (.delGroup name) = some driver' ∧ DriverAgrees driver' := by
  cases found : findGroup driver name with
  | none => exact ⟨driver, by simp [groupStep, neuAdapterDriverDelGroup, found], agrees⟩
  | some g =>
    obtain ⟨agrees, running⟩ := agrees
    obtain ⟨cache', deleted, inv, keys⟩ := delGroup_done agrees.toFitting found
    refine ⟨_, by rw [groupStep, deleted]; rfl, ?_, by simpa using running⟩
    rw [tryDelTag_groups]
    exact agrees_erase agrees inv fun key => by rw [keys, entered_of_find found]

/-- Updates of the plugin touch no key. -/
theorem cache_agrees {driver : NeuAdapterDriver} {cache : NeuDriverCache}
    (agrees : DriverAgrees driver) (inv : CacheInv cache)
    (keys : ∀ key, key ∈ cache.table.keys ↔ key ∈ driver.cache.table.keys) :
    DriverAgrees { driver with cache } := by
  obtain ⟨agrees, running⟩ := agrees
  refine ⟨⟨⟨inv, agrees.named, agrees.fits⟩, fun key => ?_, agrees.split⟩, running⟩
  rw [keys, agrees.cached]

end Cpm
