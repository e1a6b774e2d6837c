import Cpm.Driver.Edits

/-! What the other requests and the read timer do, from a state in which names and tags fit the
cache. -/
namespace Cpm

open Lib

def GroupT.cachedTags (g : GroupT) : List NeuDatatag := g.staticTags ++ g.grp.tags

structure Fitting (cache : NeuDriverCache) (groups : Table CStr GroupT) : Prop where
  inv : CacheInv cache
  named : ∀ name g, groups.find name = some g → g.name = name ∧ name.strlen < NEU_GROUP_NAME_LEN
  fits : ∀ name g, groups.find name = some g →
    ∀ tag ∈ g.group.tags.values ++ g.cachedTags, TagFits tag

section
variable {cache cache' : NeuDriverCache} {groups : Table CStr GroupT} {name : CStr} {g : GroupT}

theorem Fitting.insert (fitting : Fitting cache groups) (inv : CacheInv cache') (named : g.name = name)
    (short : name.strlen < NEU_GROUP_NAME_LEN)
    (fits : ∀ tag ∈ g.group.tags.values ++ g.cachedTags, TagFits tag) :
    Fitting cache' (groups.insert name g) := by
  refine ⟨inv, fun other h now => ?_, fun other h now => ?_⟩
  · obtain ⟨rfl, rfl⟩ | ⟨_, before⟩ := Table.find_insert_some now
    · exact ⟨named, short⟩
    · exact fitting.named other h before
  · obtain ⟨rfl, rfl⟩ | ⟨_, before⟩ := Table.find_insert_some now
    · exact fits
    · exact fitting.fits other h before

theorem Fitting.erase (fitting : Fitting cache groups) (inv : CacheInv cache') (name : CStr) :
    Fitting cache' (groups.erase name) := by
  have before (other : CStr) (h : GroupT) (now : (groups.erase name).find other = some h) :
      groups.find other = some h := (Table.find_erase_some.1 now).2
  exact ⟨inv, fun other h now => fitting.named other h (before other h now),
    fun other h now => fitting.fits other h (before other h now)⟩

theorem Fitting.replace {g' : GroupT} (fitting : Fitting cache groups) (inv : CacheInv cache')
    (found : groups.find name = some g) (named : g'.name = g.name)
    (fits : ∀ tag ∈ g'.group.tags.values ++ g'.cachedTags, TagFits tag) :
    Fitting cache' (groups.insert name g') := by
  obtain ⟨same, short⟩ := fitting.named name g found
  exact fitting.insert inv (named.trans same) short fits

end

theorem newGroup_fits (serial : Nat) (name : CStr) (interval : UInt32) :
    ∀ tag ∈ (newGroup serial name interval).group.tags.values ++
      (newGroup serial name interval).cachedTags, TagFits tag :=
  fun _ member => by cases member

theorem edited_fits {clock : Int → Prop} {g : GroupT} {group' : NeuGroup}
    (fits : ∀ tag ∈ g.group.tags.values ++ g.cachedTags, TagFits tag)
    (edited : Edited clock g.group group') :
    ∀ tag ∈ group'.tags.values ++ g.cachedTags, TagFits tag := by
  obtain ⟨values, arrays⟩ := List.forall_mem_append.1 fits
  refine List.forall_mem_append.2 ⟨fun tag member => ?_, arrays⟩
  exact (edited.values tag member).elim (values tag) id

/-- An edit that takes no reading equal to the saved one leaves no split that is out of date
unseen. -/
theorem edited_split {g : GroupT} {group' : NeuGroup} {saved : Int} (here : g.timestamp = saved)
    (edited : Edited (· ≠ saved) g.group group')
    (split : g.group.timestamp = g.timestamp →
      (g.staticTags, g.grp.tags) = neuGroupSplitStaticTags g.group)
    (equal : group'.timestamp = g.timestamp) :
    (g.staticTags, g.grp.tags) = neuGroupSplitStaticTags group' := by
  obtain ⟨tags, timestamp⟩ | moved := edited.stamped
  · have before := split (timestamp.symm.trans equal)
    simpa only [neuGroupSplitStaticTags, tags] using before
  · exact absurd (equal.trans here) moved

theorem change_fitting {group : CStr} {clock : Int → Prop} {driver driver' : NeuAdapterDriver}
    (fitting : Fitting driver.cache driver.groups) (change : Change group clock driver driver') :
    Fitting driver'.cache driver'.groups := by
  cases change with
  | create interval absent short =>
    exact fitting.insert fitting.inv rfl short (newGroup_fits driver.serials group interval)
  | edit found edited =>
    have fits := edited_fits (fitting.fits group _ found) edited
    exact fitting.replace fitting.inv found rfl fits
  | record quiet => exact fitting
  | count tagCnt => exact fitting

/-- The timestamp that the group's last tick saved, 0 before the first one. -/
def savedTimestamp (driver : NeuAdapterDriver) (group : CStr) : Int :=
  ((findGroup driver group).map GroupT.timestamp).getD 0

theorem change_saved {group : CStr} {clock : Int → Prop} {driver driver' : NeuAdapterDriver}
    (change : Change group clock driver driver') :
    savedTimestamp driver' group = savedTimestamp driver group := by
  cases change with
  | create interval absent short =>
    rw [savedTimestamp, findGroup, NeuAdapterDriver.setGroup, Table.find_insert, if_pos rfl,
      savedTimestamp, absent]
    rfl
  | edit found edited =>
    rw [savedTimestamp, findGroup, NeuAdapterDriver.setGroup, Table.find_insert, if_pos rfl,
      savedTimestamp, found]
    rfl
  | record quiet => rfl
  | count tagCnt => rfl

/- The loops over the cache. -/

theorem staticEntry_plain {tag : NeuDatatag} (fits : TagFits tag) : Cacheable (staticEntry tag) := by
  unfold staticEntry neuTagGetStaticValue
  cases neuTagAttributeTest tag NEU_ATTRIBUTE_STATIC with
  | false => simp [errorValue, Cacheable]
  | true =>
    cases stored : tag.staticValue with
    | none => simp [errorValue, Cacheable]
    | some value => exact fits.plain value stored

theorem otherEntry_plain (tag : NeuDatatag) : Cacheable (otherEntry tag) := by
  simp [otherEntry, errorValue, Cacheable]

theorem cacheDelTags_keys {cache : NeuDriverCache} {group : CStr} {tags : List NeuDatatag}
    (named : group.strlen < NEU_GROUP_NAME_LEN) (fits : ∀ tag ∈ tags, TagFits tag)
    (inv : CacheInv cache) :
    ∃ cache', cacheDelTags cache group tags = some cache' ∧ CacheInv cache' ∧
      ∀ key, key ∈ cache'.table.keys ↔
        key ∈ cache.table.keys ∧ ∀ tag ∈ tags, key ≠ keyOf group tag.name := by
  induction tags generalizing cache with
  | nil => exact ⟨cache, rfl, inv, by simp⟩
  | cons tag rest ih =>
    obtain ⟨here, further⟩ := List.forall_mem_cons.1 fits
    let ref : TagRef := ⟨group, tag.name, named, here.name⟩
    obtain ⟨next, deleted, kept, keys⟩ := del_keys ref inv
    obtain ⟨cache', ran, ended, others⟩ := ih further kept
    refine ⟨cache', ?_, ended, fun key => ?_⟩
    · rw [cacheDelTags, List.foldlM_cons, deleted]
      exact ran
    · rw [others, keys, List.forall_mem_cons, and_assoc]

theorem cacheAddTags_keys (entry : NeuDatatag → NeuDvalue) {cache : NeuDriverCache} {group : CStr}
    {tags : List NeuDatatag} (named : group.strlen < NEU_GROUP_NAME_LEN)
    (fits : ∀ tag ∈ tags, TagFits tag) (plain : ∀ tag, TagFits tag → Cacheable (entry tag))
    (inv : CacheInv cache) :
    ∃ cache', cacheAddTags entry cache group tags = some cache' ∧ CacheInv cache' ∧
      ∀ key, key ∈ cache'.table.keys ↔
        key ∈ cache.table.keys ∨ ∃ tag ∈ tags, key = keyOf group tag.name := by
  induction tags generalizing cache with
  | nil => exact ⟨cache, rfl, inv, by simp⟩
  | cons tag rest ih =>
    obtain ⟨here, further⟩ := List.forall_mem_cons.1 fits
    let ref : TagRef := ⟨group, tag.name, named, here.name⟩
    obtain ⟨next, added, kept, keys⟩ := add_keys ref inv (plain tag here)
    obtain ⟨cache', ran, ended, others⟩ := ih further kept
    refine ⟨cache', ?_, ended, fun key => ?_⟩
    · rw [cacheAddTags, List.foldlM_cons, added]
      exact ran
    · rw [others, keys, List.exists_mem_cons_iff, or_assoc]

theorem groupChange_keys (timestamp : Int) {cache : NeuDriverCache} {group : GroupT}
    {staticTags otherTags : List NeuDatatag} (named : group.name.strlen < NEU_GROUP_NAME_LEN)
    (old : ∀ tag ∈ group.cachedTags, TagFits tag)
    (new : ∀ tag ∈ staticTags ++ otherTags, TagFits tag) (inv : CacheInv cache) :
    ∃ cache', groupChange cache group timestamp staticTags otherTags =
        some (cache', { group with timestamp, staticTags, grp := ⟨group.name, otherTags⟩ }) ∧
      CacheInv cache' ∧ ∀ key, key ∈ cache'.table.keys ↔
        (key ∈ cache.table.keys ∧ ∀ tag ∈ group.cachedTags, key ≠ keyOf group.name tag.name) ∨
          ∃ tag ∈ staticTags ++ otherTags, key = keyOf group.name tag.name := by
  obtain ⟨oldStatic, oldOther⟩ := List.forall_mem_append.1 old
  obtain ⟨newStatic, newOther⟩ := List.forall_mem_append.1 new
  obtain ⟨c₁, ran₁, inv₁, keys₁⟩ := cacheDelTags_keys named oldStatic inv
  obtain ⟨c₂, ran₂, inv₂, keys₂⟩ := cacheDelTags_keys named oldOther inv₁
  obtain ⟨c₃, ran₃, inv₃, keys₃⟩ :=
    cacheAddTags_keys staticEntry named newStatic (fun _ => staticEntry_plain) inv₂
  obtain ⟨c₄, ran₄, inv₄, keys₄⟩ :=
    cacheAddTags_keys otherEntry named newOther (fun tag _ => otherEntry_plain tag) inv₃
  refine ⟨c₄, ?_, inv₄, fun key => ?_⟩
  · simp [groupChange, ran₁, ran₂, ran₃, ran₄]
  · simp only [keys₄, keys₃, keys₂, keys₁, GroupT.cachedTags, List.mem_append, or_imp, forall_and,
      or_and_right, exists_or, and_assoc, or_assoc]

/- The operations. -/

def GroupT.refreshed (g : GroupT) : GroupT :=
  let split := neuGroupSplitStaticTags g.group
  { g with timestamp := g.group.timestamp, staticTags := split.1, grp := ⟨g.name, split.2⟩ }

theorem split_fits {g : GroupT} (values : ∀ tag ∈ g.group.tags.values, TagFits tag) :
    ∀ tag ∈ g.refreshed.cachedTags, TagFits tag := fun tag member =>
  values tag (List.mem_of_mem_filter (mem_split.1 member))

theorem changeTest_done {cache : NeuDriverCache} {groups : Table CStr GroupT} {name : CStr}
    {g : GroupT} (fitting : Fitting cache groups) (found : groups.find name = some g) :
    (neuGroupChangeTest cache g = some (cache, g) ∧ g.group.timestamp = g.timestamp) ∨
      ∃ cache', neuGroupChangeTest cache g = some (cache', g.refreshed) ∧ CacheInv cache' ∧
        ∀ key, key ∈ cache'.table.keys ↔
          (key ∈ cache.table.keys ∧ ∀ tag ∈ g.cachedTags, key ≠ keyOf name tag.name) ∨
            ∃ tag ∈ g.refreshed.cachedTags, key = keyOf name tag.name := by
  obtain ⟨rfl, short⟩ := fitting.named name g found
  obtain ⟨values, arrays⟩ := List.forall_mem_append.1 (fitting.fits g.name g found)
  unfold neuGroupChangeTest
  by_cases moved : neuGroupIsChange g.group g.timestamp = true
  · rw [if_pos moved]
    exact .inr (groupChange_keys g.group.timestamp short arrays (split_fits values) fitting.inv)
  · rw [if_neg moved]
    exact .inl ⟨rfl, by simpa [neuGroupIsChange] using moved⟩

@[simp] theorem tryDelTag_adapter (driver : NeuAdapterDriver) (n : Nat) :
    (neuAdapterDriverTryDelTag driver n).adapter = driver.adapter := by
  unfold neuAdapterDriverTryDelTag
  split <;> rfl

@[simp] theorem tryDelTag_groups (driver : NeuAdapterDriver) (n : Nat) :
    (neuAdapterDriverTryDelTag driver n).groups = driver.groups := by
  unfold neuAdapterDriverTryDelTag
  split <;> rfl

theorem delGroup_done {driver : NeuAdapterDriver} {name : CStr} {g : GroupT}
    (fitting : Fitting driver.cache driver.groups) (found : findGroup driver name = some g) :
    ∃ cache', neuAdapterDriverDelGroup driver name =
        some ({ neuAdapterDriverTryDelTag { driver with groups := driver.groups.erase name }
          (neuGroupTagSize g.group) with cache := cache' }, NEU_ERR_SUCCESS) ∧
      CacheInv cache' ∧ ∀ key, key ∈ cache'.table.keys ↔
        key ∈ driver.cache.table.keys ∧ ∀ tag ∈ g.cachedTags, key ≠ keyOf name tag.name := by
  obtain ⟨_, short⟩ := fitting.named name g found
  obtain ⟨_, arrays⟩ := List.forall_mem_append.1 (fitting.fits name g found)
  obtain ⟨static, other⟩ := List.forall_mem_append.1 arrays
  obtain ⟨c₁, ran₁, inv₁, keys₁⟩ := cacheDelTags_keys short static fitting.inv
  obtain ⟨c₂, ran₂, inv₂, keys₂⟩ := cacheDelTags_keys short other inv₁
  have same : (neuAdapterDriverTryDelTag { driver with groups := driver.groups.erase name }
      (neuGroupTagSize g.group)).cache = driver.cache := by
    unfold neuAdapterDriverTryDelTag
    split <;> rfl
  refine ⟨c₂, ?_, inv₂, fun key => ?_⟩
  · simp [neuAdapterDriverDelGroup, found, same, ran₁, ran₂]
  · simp only [keys₂, keys₁, GroupT.cachedTags, List.mem_append, or_imp, forall_and, and_assoc]

def Renames (driver : NeuAdapterDriver) (name newName : CStr) (copied : Bool) : Prop :=
  name ≠ newName ∧ newName.strlen ≠ 0 ∧ findGroup driver newName = none ∧ copied = true

theorem setInterval_changes {clock : Int → Prop} {driver : NeuAdapterDriver} {name : CStr}
    {g : GroupT} (found : findGroup driver name = some g) (interval : UInt32) :
    Changes name clock driver (driver.setGroup name (g.setInterval interval)) :=
  .single (.edit found (unedited rfl rfl))

theorem updateGroup_cases (driver : NeuAdapterDriver) (name newName : CStr) (interval : UInt32)
    (copied : Bool) :
    (neuAdapterDriverUpdateGroup driver name newName interval copied).1 = driver ∨
      ∃ g interval', findGroup driver name = some g ∧
        ((neuAdapterDriverUpdateGroup driver name newName interval copied).1 =
            driver.setGroup name (g.setInterval interval') ∨
          Renames driver name newName copied ∧
            (neuAdapterDriverUpdateGroup driver name newName interval copied).1 =
              { driver with groups := driver.groups.erase name }.setGroup newName
                ((g.renamed newName).setInterval interval')) := by
  unfold neuAdapterDriverUpdateGroup
  split
  · exact .inl rfl
  · next g found =>
    split
    · exact .inl rfl
    next nonempty =>
    split
    · exact .inl rfl
    next free =>
    simp only
    split
    · exact .inr ⟨g, _, found, .inl rfl⟩
    next different =>
    split
    · next copies =>
      have absent : findGroup driver newName = none := by
        by_contra present
        exact free ⟨different, Option.isSome_iff_ne_none.2 present⟩
      exact .inr ⟨g, _, found, .inr ⟨⟨different, nonempty, absent, copies⟩, rfl⟩⟩
    · exact .inr ⟨g, _, found, .inl rfl⟩

theorem updateGroup_done (clock : Int → Prop) (driver : NeuAdapterDriver) (name newName : GroupName)
    (interval : UInt32) (copied : Bool) :
    Changes name clock driver
        (neuAdapterDriverUpdateGroup driver name newName interval copied).1 ∨
      ∃ g interval', findGroup driver name = some g ∧ Renames driver name newName copied ∧
        (neuAdapterDriverUpdateGroup driver name newName interval copied).1 =
          { driver with groups := driver.groups.erase name }.setGroup newName
            ((g.renamed newName).setInterval interval') := by
  obtain same | ⟨g, interval', found, same | ⟨renames, same⟩⟩ :=
    updateGroup_cases driver name newName interval copied
  · rw [same]
    exact .inl .refl
  · rw [same]
    exact .inl (setInterval_changes found interval')
  · exact .inr ⟨g, interval', found, renames, same⟩

theorem updateErrors_keys (band : DeadBand) {cache : NeuDriverCache} {group : CStr} (timestamp : Int)
    (value : ValueU) (precision : UInt8) {tags : List NeuDatatag}
    (named : group.strlen < NEU_GROUP_NAME_LEN)
    (fits : ∀ tag ∈ tags, TagFits tag) (inv : CacheInv cache) :
    ∃ cache', tags.foldlM (fun cache tag => neuDriverCacheUpdate band cache group tag.name timestamp
        ⟨.error, value, precision⟩ [] [] 0) cache = some cache' ∧ CacheInv cache' ∧
      ∀ key, key ∈ cache'.table.keys ↔ key ∈ cache.table.keys := by
  let v : CallerValue := ⟨⟨.error, value, precision⟩, [], fun is => (by cases is),
    fun is => (by cases is), fun is => (by cases is)⟩
  induction tags generalizing cache with
  | nil => exact ⟨cache, rfl, inv, fun _ => Iff.rfl⟩
  | cons tag rest ih =>
    obtain ⟨here, further⟩ := List.forall_mem_cons.1 fits
    let ref : TagRef := ⟨group, tag.name, named, here.name⟩
    have safe : CacheSafe cache (.update ref timestamp v ⟨[], Nat.zero_le _⟩ false 0) := by
      intro _ _ is
      cases is
    obtain ⟨next, updated, kept, keys⟩ := update_keys band inv safe
    obtain ⟨cache', ran, ended, others⟩ := ih further kept
    refine ⟨cache', ?_, ended, fun key => (others key).trans (keys key)⟩
    rw [List.foldlM_cons]
    exact Option.bind_eq_some_iff.2 ⟨next, updated, ran⟩

theorem update_op_done (band : DeadBand) {driver : NeuAdapterDriver} {ref : TagRef} {timestamp : Int}
    {v : CallerValue} {metas : TagMetas} {fresh : Nat} (inv : CacheInv driver.cache)
    (safe : CacheSafe driver.cache (.update ref timestamp v metas false fresh)) :
    ∃ cache', groupStep driver (.update band ref timestamp v metas fresh) =
        some { driver with cache := cache' } ∧ CacheInv cache' ∧
      ∀ key, key ∈ cache'.table.keys ↔ key ∈ driver.cache.table.keys := by
  obtain ⟨cache', updated, kept, keys⟩ := update_keys band inv safe
  exact ⟨cache', by simp [groupStep, updateWithMeta, updated], kept, keys⟩

theorem updateError_op_done (band : DeadBand) {driver : NeuAdapterDriver} (group : GroupName)
    (timestamp : Int) (value : ValueU) (precision : UInt8)
    (fitting : Fitting driver.cache driver.groups) :
    ∃ cache', groupStep driver (.updateError band group timestamp value precision) =
        some { driver with cache := cache' } ∧ CacheInv cache' ∧
      ∀ key, key ∈ cache'.table.keys ↔ key ∈ driver.cache.table.keys := by
  cases found : findGroup driver group with
  | none =>
    exact ⟨driver.cache, by simp [groupStep, updateWithMeta, found], fitting.inv, fun _ => Iff.rfl⟩
  | some g =>
    have fits : ∀ tag ∈ (neuGroupGetReadTag g.group).filter fun tag =>
        !neuTagAttributeTest tag NEU_ATTRIBUTE_STATIC, TagFits tag := by
      intro tag member
      have inside := List.mem_of_mem_filter (List.mem_of_mem_filter member)
      exact fitting.fits group g found tag (List.mem_append_left _ inside)
    obtain ⟨cache', updated, inv, keys⟩ := updateErrors_keys band timestamp value precision
      group.property fits fitting.inv
    exact ⟨cache', by simp [groupStep, updateWithMeta, found, updated], inv, keys⟩

end Cpm
