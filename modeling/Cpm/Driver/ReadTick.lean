import Cpm.Driver.Agree
import Cpm.Lib.Run

/-! What the read tick of a group leaves, over whole runs. -/
namespace Cpm

open Lib Lib.Run

theorem changeTest_agrees {cache : NeuDriverCache} {groups : Table CStr GroupT} {name : CStr}
    {g : GroupT} (agrees : Agrees cache groups) (found : groups.find name = some g) :
    ∃ cache' g', neuGroupChangeTest cache g = some (cache', g') ∧
      Agrees cache' (groups.insert name g') ∧ g'.group = g.group ∧
      (g'.staticTags, g'.grp.tags) = neuGroupSplitStaticTags g.group := by
  obtain ⟨unchanged, same⟩ | ⟨cache', changed, inv, keys⟩ := changeTest_done agrees.toFitting found
  · have split := agrees.split name g found same
    have fitting := agrees.replace agrees.inv found rfl (agrees.fits name g found)
    exact ⟨cache, g, unchanged,
      agrees_insert agrees fitting (entered_of_find found).symm fun _ => split, rfl, split⟩
  · obtain ⟨values, _⟩ := List.forall_mem_append.1 (agrees.fits name g found)
    have fitting : Fitting cache' (groups.insert name g.refreshed) :=
      agrees.replace inv found rfl (List.forall_mem_append.2 ⟨values, split_fits values⟩)
    refine ⟨cache', g.refreshed, changed, agrees_replace agrees fitting (fun key => ?_) fun _ => rfl,
      rfl, rfl⟩
    rw [keys, entered_of_find found]

/-- The tick succeeds, and the arrays are the split of the tags then. -/
theorem readTick_agrees {driver : NeuAdapterDriver} (name : CStr) (agrees : DriverAgrees driver) :
    ∃ ticked, readCallback driver name = some ticked ∧ DriverAgrees ticked ∧
      ∀ g, findGroup ticked name = some g →
        (g.staticTags, g.grp.tags) = neuGroupSplitStaticTags g.group := by
  unfold readCallback
  split
  · next absent =>
    refine ⟨driver, rfl, agrees, fun g found => ?_⟩
    rw [absent] at found
    cases found
  · next g found =>
    obtain ⟨cache', g', tested, kept, same, split⟩ := changeTest_agrees agrees.agrees found
    let ticked :=
      ({ driver with cache := cache' }.setGroup name g').record [.groupTimer g'.grp]
    refine ⟨ticked, by simp [agrees.running, tested, ticked], ⟨kept, agrees.running⟩,
      fun h now => ?_⟩
    have here : findGroup ticked name = some g' := by
      simp [ticked, findGroup, NeuAdapterDriver.record, NeuAdapterDriver.setGroup,
        Table.find_insert]
    cases here.symm.trans now
    rw [same]
    exact split

/-- Where the tick can repair the cache: names change only while nothing is entered under them, and
no edit finds the clock at the timestamp that the group's last tick saved. Updates keep to the
rules of the cache. -/
def AgreeAllowed (driver : NeuAdapterDriver) : GroupOp → Prop
  | .addTags _ group tags now | .updateTags _ group tags now =>
    ∀ i, i < tags.length → now i ≠ savedTimestamp driver group
  | .delTags group tags now => ∀ i, i < tags.length → now i ≠ savedTimestamp driver group
  | .updateGroup name newName _ copied =>
    Renames driver name newName copied → entered driver.groups name = []
  | .update _ ref timestamp v metas fresh =>
    CacheSafe driver.cache (.update ref timestamp v metas false fresh)
  | .addGroup _ _ | .delGroup _ | .readTick _ | .updateError _ _ _ _ _ => True

theorem groupStep_agrees {driver : NeuAdapterDriver} {op : GroupOp} (agrees : DriverAgrees driver)
    (allowed : AgreeAllowed driver op) :
    ∃ driver', groupStep driver op = some driver' ∧ DriverAgrees driver' := by
  cases op with
  | addGroup name interval =>
    refine ⟨_, rfl, ?_⟩
    unfold neuReqAddGroup
    split
    · exact agrees
    · exact changes_agrees agrees (addGroup_changes driver name interval)
  | updateGroup name newName interval copied => exact ⟨_, rfl, updateGroup_agrees agrees allowed⟩
  | delGroup name => exact delGroup_agrees name agrees
  | addTags plugin group tags now =>
    exact ⟨_, rfl, changes_agrees agrees (reqAddTag_changes allowed)⟩
  | updateTags plugin group tags now =>
    exact ⟨_, rfl, changes_agrees agrees
      (updateTagLoop_changes fun j _ high => allowed j (by omega))⟩
  | delTags group tags now =>
    exact ⟨_, rfl, changes_agrees agrees (reqDelTag_changes fun j _ high => allowed j (by omega))⟩
  | readTick name =>
    obtain ⟨ticked, ran, kept, _⟩ := readTick_agrees name agrees
    exact ⟨ticked, ran, kept⟩
  | update band ref timestamp v metas fresh =>
    obtain ⟨cache', updated, inv, keys⟩ := update_op_done band agrees.agrees.inv allowed
    exact ⟨_, updated, cache_agrees agrees inv keys⟩
  | updateError band group timestamp value precision =>
    obtain ⟨cache', updated, inv, keys⟩ :=
      updateError_op_done band group timestamp value precision agrees.agrees.toFitting
    exact ⟨_, updated, cache_agrees agrees inv keys⟩

/- An update behind the tick, and the next read. -/

theorem metaGet_reads {cache : NeuDriverCache} (ref : TagRef) (inv : CacheInv cache) :
    ∃ result, neuDriverCacheMetaGet cache ref.group ref.tag NEU_TAG_META_SIZE = some result ∧
      viewMeta result = (mapOf cache ref.names).map Entry.viewMeta := by
  obtain ⟨cache', seen, stepped, _, effect⟩ := metaGet_done exactBand ref 3 inv
  obtain ⟨result, got, same⟩ := Option.map_eq_some_iff.1 stepped
  cases same
  exact ⟨result, got, effect.1⟩

theorem readTag_total {fl : FloatOps} {timestamp timeout : Int} {cache : NeuDriverCache}
    {group : CStr} {tag : NeuDatatag} (named : group.strlen < NEU_GROUP_NAME_LEN)
    (fits : TagFits tag) (inv : CacheInv cache) :
    ∃ entry, readTag fl timestamp timeout cache group tag = some entry := by
  let ref : TagRef := ⟨group, tag.name, named, fits.name⟩
  obtain ⟨result, got, _⟩ := metaGet_reads ref inv
  unfold readTag
  rw [got]
  cases result with
  | none => exact ⟨_, rfl⟩
  | some value => exact ⟨_, rfl⟩

theorem readGroup_mem {fl : FloatOps} {timestamp timeout : Int} {cache : NeuDriverCache}
    {group : CStr} {tags : List NeuDatatag}
    (total : ∀ tag ∈ tags, ∃ entry, readTag fl timestamp timeout cache group tag = some entry) :
    ∃ datas, readGroup fl timestamp timeout cache group tags = some datas ∧
      ∀ tag ∈ tags, ∀ entry, readTag fl timestamp timeout cache group tag = some entry →
        entry ∈ datas := by
  induction tags with
  | nil => exact ⟨[], rfl, List.forall_mem_nil _⟩
  | cons tag rest ih =>
    obtain ⟨⟨first, read⟩, further⟩ := List.forall_mem_cons.1 total
    obtain ⟨datas, ran, others⟩ := ih further
    refine ⟨first :: datas, ?_, List.forall_mem_cons.2 ⟨?_, ?_⟩⟩
    · unfold readGroup at ran ⊢
      rw [List.mapM_cons, read, ran]
      rfl
    · intro entry again
      cases read.symm.trans again
      exact List.mem_cons_self ..
    · intro other member entry again
      exact List.mem_cons_of_mem _ (others other member entry again)

/-- The next read of the group shows the update: what its entry says of the tag is said of the
value and the timestamp of the update. -/
def Visible (driver : NeuAdapterDriver) (group : CStr) (tag : NeuDatatag) (timestamp : Int)
    (v : CallerValue) (metas : TagMetas) (fresh : Nat) : Prop :=
  ∀ band, ∃ updated, updateWithMeta band driver group (some tag.name) timestamp v.value v.data
      metas.val fresh = some updated ∧
    ∀ fl cmdDriver now, ∃ nTag datas value g,
      neuAdapterDriverReadGroup fl updated cmdDriver group now =
        some (.group cmdDriver group nTag datas) ∧
      findGroup updated group = some g ∧
      ⟨tag.name, tagValue fl tag value (now - timestamp > readTimeout g.group), value.data,
        metasOf metas.val⟩ ∈ datas ∧
      value.value.type = v.value.type ∧
      payload value.value.type value.value.value value.data = v.payload

theorem update_visible {driver : NeuAdapterDriver} {g : GroupT} {tag : NeuDatatag}
    {timestamp : Int} {v : CallerValue} {metas : TagMetas} {fresh : Nat} {ref : TagRef}
    (agrees : DriverAgrees driver) (found : findGroup driver ref.group = some g)
    (read : tag ∈ neuGroupGetReadTag g.group) (named : ref.tag = tag.name)
    (cached : keyOf ref.group ref.tag ∈ driver.cache.table.keys)
    (safe : CacheSafe driver.cache (.update ref timestamp v metas false fresh)) :
    Visible driver ref.group tag timestamp v metas fresh := by
  intro band
  obtain ⟨cache', seen, stepped, inv, _, effect⟩ := update_done band agrees.agrees.inv safe
  obtain ⟨_, updated, same⟩ := Option.map_eq_some_iff.1 stepped
  cases same
  obtain ⟨elem, here⟩ := Option.isSome_iff_exists.1 (Table.find_isSome.2 cached)
  simp only [here] at effect
  obtain ⟨changed, _, mapped⟩ := effect
  have updates : neuDriverCacheUpdate band driver.cache ref.group tag.name timestamp v.value v.data
      metas.val fresh = some cache' := named ▸ updated
  refine ⟨{ driver with cache := cache' }, by simp [updateWithMeta, updates],
    fun fl cmdDriver now => ?_⟩
  have total : ∀ other ∈ neuGroupGetReadTag g.group,
      ∃ entry, readTag fl now (readTimeout g.group) cache' ref.group other = some entry := by
    intro other member
    have inside := List.mem_append_left g.cachedTags (List.mem_of_mem_filter member)
    exact readTag_total ref.groupFits (agrees.agrees.fits _ g found other inside) inv
  obtain ⟨datas, ran, shown⟩ := readGroup_mem total
  obtain ⟨result, got, view⟩ := metaGet_reads ref inv
  rw [mapped, Function.update_self, Option.map_some] at view
  obtain ⟨⟨value, allMetas⟩, rfl, same⟩ := Option.map_eq_some_iff.1 view
  simp only [NeuDriverCacheValue.view, Entry.viewMeta, Entry.view, View.mk.injEq,
    Option.some.injEq] at same
  obtain ⟨type, content, _, stamped, _, metas'⟩ := same
  have entry : readTag fl now (readTimeout g.group) cache' ref.group tag =
      some ⟨tag.name, tagValue fl tag value (now - timestamp > readTimeout g.group), value.data,
        metasOf metas.val⟩ := by
    have gets : neuDriverCacheMetaGet cache' ref.group tag.name NEU_TAG_META_SIZE =
        some (some (value, allMetas)) := named ▸ got
    simp [readTag, gets, stamped, metas']
  refine ⟨(neuGroupGetReadTag g.group).length % 2 ^ 16, datas, value, g, ?_, found,
    shown tag read _ entry, type, content⟩
  have finds : findGroup { driver with cache := cache' } ref.group = some g := found
  simp [neuAdapterDriverReadGroup, finds, agrees.running, ran]

/- Whole runs. -/

/-- What holds after a tick of the group `name`: the keys under this name are those of its tags to
be read, every key has a group, and an update of such a tag can be read. -/
structure Refreshed (driver : NeuAdapterDriver) (name : GroupName) : Prop where
  keys : ∀ g, findGroup driver name = some g → ∀ key,
    key ∈ driver.cache.table.keys ∧ key.group = name.val.field NEU_GROUP_NAME_LEN ↔
      ∃ tag ∈ neuGroupGetReadTag g.group, key = keyOf name tag.name
  owned : ∀ key ∈ driver.cache.table.keys, ∃ other g, findGroup driver other = some g ∧
    key.group = other.field NEU_GROUP_NAME_LEN
  visible : ∀ g, findGroup driver name = some g → ∀ tag ∈ neuGroupGetReadTag g.group,
    ∀ (ref : TagRef) timestamp v (metas : TagMetas) fresh, ref.group = name → ref.tag = tag.name →
      CacheSafe driver.cache (.update ref timestamp v metas false fresh) →
      Visible driver name tag timestamp v metas fresh

theorem keys_of_split {driver : NeuAdapterDriver} {name : CStr} {g : GroupT}
    (agrees : DriverAgrees driver) (found : findGroup driver name = some g)
    (split : (g.staticTags, g.grp.tags) = neuGroupSplitStaticTags g.group) (key : TKey) :
    key ∈ driver.cache.table.keys ∧ key.group = name.field NEU_GROUP_NAME_LEN ↔
      ∃ tag ∈ neuGroupGetReadTag g.group, key = keyOf name tag.name := by
  have arrays (tag : NeuDatatag) : tag ∈ g.cachedTags ↔ tag ∈ neuGroupGetReadTag g.group := by
    rw [← mem_split, ← split, GroupT.cachedTags]
  constructor
  · rintro ⟨here, under⟩
    obtain ⟨other, h, now, tag, member, rfl⟩ := (agrees.agrees.cached key).1 here
    have same : other = name := CStr.field_injective NEU_GROUP_NAME_LEN under
    subst same
    cases found.symm.trans now
    exact ⟨tag, (arrays tag).1 member, rfl⟩
  · rintro ⟨tag, member, rfl⟩
    exact ⟨(agrees.agrees.cached _).2 ⟨name, g, found, tag, (arrays tag).2 member, rfl⟩, rfl⟩

theorem refreshed_of_split {driver : NeuAdapterDriver} {name : GroupName}
    (agrees : DriverAgrees driver) (split : ∀ g, findGroup driver name = some g →
      (g.staticTags, g.grp.tags) = neuGroupSplitStaticTags g.group) : Refreshed driver name := by
  refine ⟨fun g found => keys_of_split agrees found (split g found), fun key here => ?_, ?_⟩
  · obtain ⟨other, h, found, tag, _, rfl⟩ := (agrees.agrees.cached key).1 here
    exact ⟨other, h, found, rfl⟩
  · intro g found tag read ref timestamp v metas fresh named same safe
    have cached := (keys_of_split agrees found (split g found) _).2 ⟨tag, read, rfl⟩
    rw [← named] at found cached ⊢
    exact update_visible agrees found read same (same ▸ cached.1) safe

theorem create_agrees {adapter : NeuAdapter} {intfFuns : DriverIntfFuns}
    (running : adapter.state = .running) :
    DriverAgrees (neuAdapterDriverCreate adapter intfFuns) := by
  refine ⟨⟨⟨cacheNew_inv, ?_, ?_⟩, fun key => ?_, ?_⟩, running⟩
  · intro name g found
    cases found
  · intro name g found
    cases found
  · constructor
    · intro here
      cases here
    · rintro ⟨name, g, found, _⟩
      cases found
  · intro name g found
    cases found

theorem cache_refreshed (adapter : NeuAdapter) (intfFuns : DriverIntfFuns) (ops : List GroupOp)
    (name : GroupName) (running : adapter.state = .running)
    (allowed : Along groupStep AgreeAllowed (neuAdapterDriverCreate adapter intfFuns) ops) :
    ∃ driver ticked, ops.foldlM groupStep (neuAdapterDriverCreate adapter intfFuns) = some driver ∧
      groupStep driver (.readTick name) = some ticked ∧ Refreshed ticked name := by
  have progress (driver : NeuAdapterDriver) (op : GroupOp) (agrees : DriverAgrees driver)
      (meets : AgreeAllowed driver op) := groupStep_agrees agrees meets
  obtain ⟨driver, ran, agrees⟩ := ends_of_step progress (create_agrees running) allowed
  obtain ⟨ticked, stepped, kept, split⟩ := readTick_agrees name.val agrees
  exact ⟨driver, ticked, ran, stepped, refreshed_of_split kept split⟩

/-- A group that gets its name and its tag before the first tick. -/
theorem cache_refreshed_early : ∃ driver ticked,
    [GroupOp.addGroup groupA 1000, .updateGroup groupA groupB 1000 true,
      .addTags accepting groupB [readTemp] fun _ => 5].foldlM groupStep newDriver = some driver ∧
      groupStep driver (.readTick groupB) = some ticked ∧ Refreshed ticked groupB := by
  refine cache_refreshed newDriver.adapter _ _ groupB rfl ⟨trivial, fun _ added => ?_⟩
  cases added
  refine ⟨fun _ => by decide +kernel, fun _ renamed => ?_⟩
  cases renamed
  refine ⟨fun i _ same => ?_, fun _ _ => trivial⟩
  have unsaved : savedTimestamp (neuAdapterDriverUpdateGroup
      (neuReqAddGroup newDriver groupA 1000).1 groupA groupB 1000 true).1 groupB = 0 := by
    decide +kernel
  have five : (5 : Int) = 0 := same.trans unsaved
  exact absurd five (by decide)

def renamedLate : List GroupOp :=
  [.addGroup groupA 1000, .addTags accepting groupA [readTemp] fun _ => 5, .readTick groupA.val,
    .updateGroup groupA groupB 1000 true]

theorem rename_leaves_keys : ¬ ∃ driver ticked, renamedLate.foldlM groupStep newDriver = some driver ∧
    groupStep driver (.readTick groupB.val) = some ticked ∧ Refreshed ticked groupB := by
  rintro ⟨driver, ticked, ran, stepped, refreshed⟩
  let key := keyOf groupA.val readTemp.tag.name
  have left : ((renamedLate.foldlM groupStep newDriver).bind fun driver =>
      (groupStep driver (.readTick groupB.val)).map fun ticked =>
        (decide (key ∈ ticked.cache.table.keys), (findGroup ticked groupA).isSome)) =
      some (true, false) := by decide +kernel
  rw [ran, Option.bind_some, stepped, Option.map_some] at left
  simp only [Option.some.injEq, Prod.mk.injEq, decide_eq_true_eq] at left
  obtain ⟨here, gone⟩ := left
  obtain ⟨other, g, found, under⟩ := refreshed.owned key here
  have same : groupA.val = other := CStr.field_injective NEU_GROUP_NAME_LEN under
  rw [same, found] at gone
  cases gone

end Cpm
