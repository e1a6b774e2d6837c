import Cpm.Driver.Fitting
import Cpm.Lib.Run

/-! Change detection. A tick splits the tags of its group again when the timestamp of their last edit
is not the one that it saved. -/
namespace Cpm

open Lib Lib.Run

def ShowsSplit (g : GroupT) : Prop := (g.staticTags, g.grp.tags) = neuGroupSplitStaticTags g.group

structure Detects (driver : NeuAdapterDriver) : Prop where
  fitting : Fitting driver.cache driver.groups
  split : ∀ name g, findGroup driver name = some g → g.group.timestamp = g.timestamp → ShowsSplit g
  running : driver.adapter.state = .running

theorem splits_insert {groups : Table CStr GroupT} {name : CStr} {g : GroupT}
    (before : ∀ other h, groups.find other = some h → h.group.timestamp = h.timestamp → ShowsSplit h)
    (new : g.group.timestamp = g.timestamp → ShowsSplit g) :
    ∀ other h, (groups.insert name g).find other = some h → h.group.timestamp = h.timestamp →
      ShowsSplit h := by
  intro other h now
  obtain ⟨rfl, rfl⟩ | ⟨_, old⟩ := Table.find_insert_some now
  · exact new
  · exact before other h old

theorem change_detects {group : CStr} {driver driver' : NeuAdapterDriver} {saved : Int}
    (detects : Detects driver) (same : savedTimestamp driver group = saved)
    (change : Change group (· ≠ saved) driver driver') : Detects driver' := by
  have fitting := change_fitting detects.fitting change
  obtain ⟨_, split, running⟩ := detects
  cases change with
  | create interval absent short => exact ⟨fitting, splits_insert split fun _ => rfl, running⟩
  | edit found edited =>
    rw [savedTimestamp, found] at same
    have seen := edited_split same edited (split group _ found)
    exact ⟨fitting, splits_insert split seen, running⟩
  | record quiet => exact ⟨fitting, split, running⟩
  | count tagCnt => exact ⟨fitting, split, running⟩

theorem changes_detects {group : CStr} {driver driver' : NeuAdapterDriver} (detects : Detects driver)
    (changes : Changes group (· ≠ savedTimestamp driver group) driver driver') :
    Detects driver' := by
  have both : Detects driver' ∧ savedTimestamp driver' group = savedTimestamp driver group := by
    induction changes with
    | refl => exact ⟨detects, rfl⟩
    | tail _ change ih =>
      exact ⟨change_detects ih.1 ih.2 change, (change_saved change).trans ih.2⟩
  exact both.1

theorem updateGroup_detects {driver : NeuAdapterDriver} (name newName : GroupName)
    (interval : UInt32) (copied : Bool) (detects : Detects driver) :
    Detects (neuAdapterDriverUpdateGroup driver name newName interval copied).1 := by
  obtain changes | ⟨g, interval', found, renames, same⟩ :=
    updateGroup_done (· ≠ savedTimestamp driver name) driver name newName interval copied
  · exact changes_detects detects changes
  · rw [same]
    obtain ⟨fitting, split, running⟩ := detects
    have others : Fitting driver.cache (driver.groups.erase name) :=
      fitting.erase fitting.inv name
    have apart : ∀ other h, (driver.groups.erase name).find other = some h →
        h.group.timestamp = h.timestamp → ShowsSplit h := by
      intro other h now
      exact split other h (Table.find_erase_some.1 now).2
    exact ⟨others.insert others.inv rfl newName.property (fitting.fits name g found),
      splits_insert apart (split name g found), running⟩

theorem delGroup_detects {driver : NeuAdapterDriver} (name : GroupName) (detects : Detects driver) :
    ∃ driver', groupStep driver (.delGroup name) = some driver' ∧ Detects driver' := by
  cases found : findGroup driver name with
  | none => exact ⟨driver, by simp [groupStep, neuAdapterDriverDelGroup, found], detects⟩
  | some g =>
    obtain ⟨fitting, split, running⟩ := detects
    obtain ⟨cache', deleted, inv, _⟩ := delGroup_done fitting found
    refine ⟨_, by rw [groupStep, deleted]; rfl, ?_, ?_, by simpa using running⟩
    · rw [tryDelTag_groups]
      exact fitting.erase inv name
    · intro other h now
      rw [findGroup, tryDelTag_groups] at now
      exact split other h (Table.find_erase_some.1 now).2

theorem cache_detects {driver : NeuAdapterDriver} {cache : NeuDriverCache} (detects : Detects driver)
    (inv : CacheInv cache) : Detects { driver with cache } :=
  ⟨⟨inv, detects.fitting.named, detects.fitting.fits⟩, detects.split, detects.running⟩

/-- Changed or not, the group that the tick leaves shows its split. -/
theorem changeTest_detects {driver : NeuAdapterDriver} {name : CStr} {g : GroupT}
    (detects : Detects driver) (found : findGroup driver name = some g) :
    ∃ cache' g', neuGroupChangeTest driver.cache g = some (cache', g') ∧
      Fitting cache' (driver.groups.insert name g') ∧ ShowsSplit g' := by
  have fits := detects.fitting.fits name g found
  obtain ⟨unchanged, same⟩ | ⟨cache', changed, inv, _⟩ := changeTest_done detects.fitting found
  · have kept := detects.fitting.replace detects.fitting.inv found rfl fits
    exact ⟨driver.cache, g, unchanged, kept, detects.split name g found same⟩
  · obtain ⟨values, _⟩ := List.forall_mem_append.1 fits
    have now := List.forall_mem_append.2 ⟨values, split_fits values⟩
    exact ⟨cache', g.refreshed, changed, detects.fitting.replace inv found rfl now, rfl⟩

theorem readTick_detects {driver : NeuAdapterDriver} (name : CStr) (detects : Detects driver) :
    ∃ ticked, readCallback driver name = some ticked ∧ Detects ticked ∧
      ∀ g, findGroup ticked name = some g → ShowsSplit g := by
  unfold readCallback
  split
  · next absent =>
    refine ⟨driver, rfl, detects, fun g found => ?_⟩
    rw [absent] at found
    cases found
  · next g found =>
    obtain ⟨cache', g', tested, fitting, shows⟩ := changeTest_detects detects found
    let ticked := ({ driver with cache := cache' }.setGroup name g').record [.groupTimer g'.grp]
    have split : ∀ other h, (driver.groups.insert name g').find other = some h →
        h.group.timestamp = h.timestamp → ShowsSplit h :=
      splits_insert detects.split fun _ => shows
    refine ⟨ticked, by simp [detects.running, tested, ticked], ⟨fitting, split, detects.running⟩, ?_⟩
    intro h now
    obtain ⟨_, rfl⟩ | ⟨away, _⟩ := Table.find_insert_some now
    · exact shows
    · exact absurd rfl away

/- Whole runs. -/

def GroupOp.readings : GroupOp → List Int
  | .addTags _ _ tags now | .updateTags _ _ tags now => (List.range tags.length).map now
  | .delTags _ tags now => (List.range tags.length).map now
  | .addGroup _ _ | .updateGroup _ _ _ _ | .delGroup _ | .readTick _ | .update _ _ _ _ _ _
  | .updateError _ _ _ _ _ => []

/-- No edit reads the timestamp that the last tick of its group has saved. -/
def DetectAllowed (driver : NeuAdapterDriver) : GroupOp → Prop
  | .addTags _ group tags now | .updateTags _ group tags now =>
    ∀ i, i < tags.length → now i ≠ savedTimestamp driver group
  | .delTags group tags now => ∀ i, i < tags.length → now i ≠ savedTimestamp driver group
  | .update _ ref timestamp v metas fresh =>
    CacheSafe driver.cache (.update ref timestamp v metas false fresh)
  | .addGroup _ _ | .updateGroup _ _ _ _ | .delGroup _ | .readTick _ | .updateError _ _ _ _ _ => True

theorem groupStep_detects {driver : NeuAdapterDriver} {op : GroupOp} (detects : Detects driver)
    (allowed : DetectAllowed driver op) :
    ∃ driver', groupStep driver op = some driver' ∧ Detects driver' := by
  cases op with
  | addGroup name interval =>
    refine ⟨_, rfl, ?_⟩
    unfold neuReqAddGroup
    split
    · exact detects
    · exact changes_detects detects (addGroup_changes driver name interval)
  | updateGroup name newName interval copied =>
    exact ⟨_, rfl, updateGroup_detects name newName interval copied detects⟩
  | delGroup name => exact delGroup_detects name detects
  | addTags plugin group tags now =>
    exact ⟨_, rfl, changes_detects detects (reqAddTag_changes allowed)⟩
  | updateTags plugin group tags now =>
    have reads : ∀ j, 0 ≤ j → j < 0 + tags.length → now j ≠ savedTimestamp driver group := by
      intro j _ high
      exact allowed j (by omega)
    exact ⟨_, rfl, changes_detects detects (updateTagLoop_changes reads)⟩
  | delTags group tags now =>
    have reads : ∀ j, 0 ≤ j → j < 0 + tags.length → now j ≠ savedTimestamp driver group := by
      intro j _ high
      exact allowed j (by omega)
    exact ⟨_, rfl, changes_detects detects (reqDelTag_changes reads)⟩
  | readTick name =>
    obtain ⟨ticked, ran, kept, _⟩ := readTick_detects name detects
    exact ⟨ticked, ran, kept⟩
  | update band ref timestamp v metas fresh =>
    obtain ⟨cache', updated, inv, _⟩ := update_op_done band detects.fitting.inv allowed
    exact ⟨_, updated, cache_detects detects inv⟩
  | updateError band group timestamp value precision =>
    obtain ⟨cache', updated, inv, _⟩ :=
      updateError_op_done band group timestamp value precision detects.fitting
    exact ⟨_, updated, cache_detects detects inv⟩

theorem create_detects {adapter : NeuAdapter} (intfFuns : DriverIntfFuns)
    (running : adapter.state = .running) : Detects (neuAdapterDriverCreate adapter intfFuns) := by
  refine ⟨⟨cacheNew_inv, ?_, ?_⟩, ?_, running⟩
  all_goals
    intro name g found
    cases found

def TickShows (start : NeuAdapterDriver) (ops : List GroupOp) (name : CStr) : Prop :=
  ∃ driver ticked, ops.foldlM groupStep start = some driver ∧
    groupStep driver (.readTick name) = some ticked ∧
    ∀ g, findGroup ticked name = some g → ShowsSplit g

theorem edits_detected (adapter : NeuAdapter) (intfFuns : DriverIntfFuns) (ops : List GroupOp)
    (name : CStr) (running : adapter.state = .running)
    (allowed : Along groupStep DetectAllowed (neuAdapterDriverCreate adapter intfFuns) ops) :
    TickShows (neuAdapterDriverCreate adapter intfFuns) ops name := by
  have progress (driver : NeuAdapterDriver) (op : GroupOp) (detects : Detects driver)
      (meets : DetectAllowed driver op) := groupStep_detects detects meets
  obtain ⟨driver, ran, detects⟩ := ends_of_step progress (create_detects intfFuns running) allowed
  obtain ⟨ticked, stepped, _, shows⟩ := readTick_detects name detects
  exact ⟨driver, ticked, ran, stepped, shows⟩

/-- The second edit comes after the group's first tick. -/
theorem edits_detected_later : TickShows newDriver
    [.addTags accepting groupA [readTemp] fun _ => 5, .readTick groupA.val,
      .delTags groupA [readTemp.tag.name] fun _ => 6] groupA := by
  refine edits_detected newDriver.adapter ⟨false, false, false⟩ _ groupA rfl
    ⟨fun i _ same => ?_, fun _ added => ?_⟩
  · have five : (5 : Int) = 0 := same
    exact absurd five (by decide)
  cases added
  refine ⟨trivial, fun ticked stepped => ⟨fun i _ same => ?_, fun _ _ => trivial⟩⟩
  let after := (neuReqAddTag accepting newDriver groupA [readTemp.tag] fun _ => 5).1
  have ran : groupStep after (.readTick groupA.val) = some ticked := stepped
  have saved : (groupStep after (.readTick groupA.val)).map (savedTimestamp · groupA) = some 5 := by
    decide +kernel
  rw [ran, Option.map_some, Option.some.injEq] at saved
  have six : (6 : Int) = 5 := same.trans saved
  exact absurd six (by decide)

def sameReading : List GroupOp :=
  [.addTags accepting groupA [readTemp] fun _ => 5, .readTick groupA.val,
    .addTags accepting groupA [readPressure] fun _ => 5]

theorem same_reading_missed :
    (sameReading.flatMap GroupOp.readings).Pairwise (· ≤ ·) ∧
    ¬ TickShows newDriver sameReading groupA := by
  constructor
  · decide
  rintro ⟨driver, ticked, ran, stepped, shows⟩
  have sizes : ((sameReading.foldlM groupStep newDriver).bind fun driver =>
      (groupStep driver (.readTick groupA.val)).bind fun ticked =>
        (findGroup ticked groupA).map fun g =>
          (g.grp.tags.length, (neuGroupSplitStaticTags g.group).2.length)) = some (1, 2) := by
    decide +kernel
  rw [ran, Option.bind_some, stepped, Option.bind_some] at sizes
  obtain ⟨g, found, both⟩ := Option.map_eq_some_iff.1 sizes
  rw [← shows g found] at both
  simp only [Prod.mk.injEq] at both
  omega

end Cpm
