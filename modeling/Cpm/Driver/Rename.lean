import Cpm.Driver.Answer
import Cpm.Driver.Groups

/-! A group gets another name and another interval, or neither. -/
namespace Cpm

open Lib Lib.Run

structure OneName (name : CStr) (g : GroupT) : Prop where
  own : g.name = name
  grp : g.grp.groupName = name
  inner : g.group.name = name

def GroupT.shown (g : GroupT) : CStr × UInt32 := (g.name, g.group.interval)

/-- A value that is too small leaves the interval as it is. -/
def chosenInterval (interval : UInt32) (g : GroupT) : UInt32 :=
  if interval < NEU_GROUP_INTERVAL_LIMIT then g.group.interval else interval

def Unchanged (driver driver' : NeuAdapterDriver) : Prop :=
  ∀ other, (findGroup driver' other).map GroupT.shown = (findGroup driver other).map GroupT.shown

/-- An update that succeeds changes the name and the interval of its group and nothing else. -/
structure Updated (driver driver' : NeuAdapterDriver) (name newName : CStr) (interval : UInt32) :
    Prop where
  moved : ∃ g, findGroup driver name = some g ∧ findGroup driver' newName = some
    { g with
      name := newName
      grp.groupName := newName
      group.name := newName
      group.interval := chosenInterval interval g }
  gone : name ≠ newName → findGroup driver' name = none
  others : ∀ other, other ≠ name → other ≠ newName → findGroup driver' other = findGroup driver other
  rest : { driver' with groups := driver.groups } = driver
  named : EachGroup OneName driver'
  unique : (driver'.groups.values.map GroupT.name).Nodup

def AtomicUpdate (driver : NeuAdapterDriver) (name newName : CStr) (interval : UInt32)
    (copied : Bool) : Prop :=
  let result := neuAdapterDriverUpdateGroup driver name newName interval copied
  (result.2 ≠ 0 → Unchanged driver result.1) ∧
    (result.2 = 0 → Updated driver result.1 name newName interval)

def CopyFails (driver : NeuAdapterDriver) (name newName : CStr) (interval : UInt32)
    (copied : Bool) : Prop :=
  ∃ g, findGroup driver name = some g ∧ newName.strlen ≠ 0 ∧ name ≠ newName ∧
    findGroup driver newName = none ∧ copied = false ∧ chosenInterval interval g ≠ g.group.interval

/- Every run keeps the copies equal. -/

theorem oneName_tags : TagsClosed OneName where
  new _ _ _ := ⟨rfl, rfl, rfl⟩
  addTag _ g tag now same := by
    refine ⟨same.own, same.grp, ?_⟩
    unfold neuGroupAddTag
    split
    · exact same.inner
    · exact same.inner
  updateTag _ g tag now same := by
    refine ⟨same.own, same.grp, ?_⟩
    unfold neuGroupUpdateTag
    split
    · exact same.inner
    · exact same.inner
  delTag _ g tag now same := by
    refine ⟨same.own, same.grp, ?_⟩
    unfold neuGroupDelTag
    split
    · exact same.inner
    · exact same.inner

theorem readTick_oneName {driver driver' : NeuAdapterDriver} {name : CStr}
    (named : EachGroup OneName driver) (ticked : readCallback driver name = some driver') :
    EachGroup OneName driver' := by
  unfold readCallback at ticked
  split at ticked
  · cases ticked
    exact named
  next g found =>
  split at ticked
  · cases ticked
    exact named
  obtain ⟨⟨cache', g'⟩, tested, same⟩ := Option.bind_eq_some_iff.1 ticked
  cases same
  have before : OneName name g := named name g found
  have new : OneName name g' := by
    unfold neuGroupChangeTest at tested
    split at tested
    · -- The new plugin group gets a copy of the group's own name.
      simp only [groupChange, Option.bind_eq_bind, Option.bind_eq_some_iff, Option.pure_def,
        Option.some.injEq, Prod.mk.injEq] at tested
      obtain ⟨_, _, _, _, _, _, _, _, _, rfl⟩ := tested
      exact ⟨before.own, before.own, before.inner⟩
    · cases tested
      exact before
  have others : EachGroup OneName { driver with cache := cache' } := named
  have inserted := each_insert others new
  exact inserted

theorem groupStep_oneName {driver driver' : NeuAdapterDriver} {op : GroupOp}
    (named : EachGroup OneName driver) (stepped : groupStep driver op = some driver') :
    EachGroup OneName driver' := by
  cases op with
  | addGroup name interval =>
    cases stepped
    unfold neuReqAddGroup
    split
    · exact named
    · exact addGroup_new oneName_tags.new named name interval
  | updateGroup name newName interval copied =>
    cases stepped
    obtain same | ⟨g, interval', found, same | ⟨_, same⟩⟩ :=
      updateGroup_cases driver name newName interval copied
    · rwa [same]
    · obtain ⟨own, grp, inner⟩ := named name g found
      have set : OneName name (g.setInterval interval') := ⟨own, grp, inner⟩
      rw [same]
      exact each_insert named set
    · have set : OneName newName ((g.renamed newName).setInterval interval') := ⟨rfl, rfl, rfl⟩
      rw [same]
      exact each_insert (each_erase named name) set
  | delGroup name =>
    obtain ⟨⟨after, error⟩, deleted, same⟩ := Option.map_eq_some_iff.1 stepped
    cases same
    obtain ⟨_, rfl⟩ | ⟨g, cache, _, rfl⟩ := delGroup_cases deleted
    · exact named
    · exact each_of_groups (each_erase named name) (tryDelTag_groups _ _)
  | addTags plugin group tags now =>
    cases stepped
    exact reqAddTag_each oneName_tags _ now named
  | updateTags plugin group tags now =>
    cases stepped
    exact updateTagLoop_each oneName_tags _ now 0 named
  | delTags group tags now =>
    cases stepped
    exact reqDelTag_each oneName_tags tags now 0 named
  | readTick name => exact readTick_oneName named stepped
  | update band ref timestamp v metas fresh =>
    rw [groupStep] at stepped
    obtain ⟨cache, rfl⟩ := update_cases stepped
    exact named
  | updateError band group timestamp value precision =>
    rw [groupStep] at stepped
    obtain ⟨cache, rfl⟩ := update_cases stepped
    exact named

/-- The copies agree in every state that requests, ticks and updates reach. -/
theorem reached_oneName {adapter : NeuAdapter} {intfFuns : DriverIntfFuns} {ops : List GroupOp}
    {driver : NeuAdapterDriver}
    (ran : ops.foldlM groupStep (neuAdapterDriverCreate adapter intfFuns) = some driver) :
    EachGroup OneName driver := by
  have empty : EachGroup OneName (neuAdapterDriverCreate adapter intfFuns) := by
    intro name g found
    cases found
  exact invariant_of_step (fun _ _ _ named _ stepped => groupStep_oneName named stepped) empty
    (along_trivial _ ops) ran

section
variable {driver : NeuAdapterDriver} {name newName : CStr} {interval : UInt32} {copied : Bool}

theorem unique_of_oneName (named : EachGroup OneName driver) :
    (driver.groups.values.map GroupT.name).Nodup := by
  have keys : driver.groups.values.map GroupT.name = driver.groups.keys := by
    rw [Table.values, Table.keys, List.map_map]
    exact List.map_congr_left fun entry inside =>
      (named entry.1 entry.2 (Table.find_eq_some.2 inside)).own
  exact keys ▸ driver.groups.nodup

theorem updateGroup_ways (driver : NeuAdapterDriver) (name newName : CStr) (interval : UInt32)
    (copied : Bool) :
    let result := neuAdapterDriverUpdateGroup driver name newName interval copied
    (result.1 = driver ∧ result.2 ≠ 0 ∧ ¬ CopyFails driver name newName interval copied) ∨
    ∃ g, findGroup driver name = some g ∧
      ((name = newName ∧ result.2 = 0 ∧
          result.1 = driver.setGroup name (g.setInterval (chosenInterval interval g))) ∨
        (name ≠ newName ∧ copied = true ∧ result.2 = 0 ∧
          result.1 = { driver with groups := driver.groups.erase name }.setGroup newName
            ((g.renamed newName).setInterval (chosenInterval interval g))) ∨
        (name ≠ newName ∧ newName.strlen ≠ 0 ∧ findGroup driver newName = none ∧ copied = false ∧
          result.2 ≠ 0 ∧
          result.1 = driver.setGroup name (g.setInterval (chosenInterval interval g)))) := by
  have missing : NEU_ERR_GROUP_NOT_EXIST ≠ 0 := by decide
  have present : NEU_ERR_GROUP_EXIST ≠ 0 := by decide
  have internal : NEU_ERR_EINTERNAL ≠ 0 := by decide
  unfold neuAdapterDriverUpdateGroup
  split
  · next absent =>
    refine .inl ⟨rfl, missing, ?_⟩
    rintro ⟨g, found, _⟩
    cases absent.symm.trans found
  next g found =>
  split
  · next empty => exact .inl ⟨rfl, internal, fun fails => absurd empty fails.choose_spec.2.1⟩
  next nonempty =>
  split
  · next taken =>
    refine .inl ⟨rfl, present, ?_⟩
    rintro ⟨_, _, _, _, free, _⟩
    rw [free] at taken
    exact absurd taken.2 (by decide)
  next free =>
  refine .inr ⟨g, found, ?_⟩
  simp only
  split
  · next same => exact .inl ⟨same, rfl, rfl⟩
  next different =>
  split
  · next copies => exact .inr (.inl ⟨different, copies, rfl, rfl⟩)
  · next fails =>
    have absent : findGroup driver newName = none := by
      by_contra present
      exact free ⟨different, Option.isSome_iff_ne_none.2 present⟩
    exact .inr (.inr ⟨different, nonempty, absent, by simpa using fails, internal, rfl⟩)

theorem setInterval_unchanged (interval : UInt32) {g : GroupT}
    (found : findGroup driver name = some g) :
    Unchanged driver (driver.setGroup name (g.setInterval interval)) ↔
      interval = g.group.interval := by
  constructor
  · intro same
    have here := same name
    rw [findGroup_setGroup, if_pos rfl, found, Option.map_some, Option.map_some,
      Option.some.injEq] at here
    exact congrArg Prod.snd here
  · intro same other
    rw [findGroup_setGroup]
    split
    · next here => rw [here, found, same]; rfl
    · rfl

theorem atomic_update (named : EachGroup OneName driver) :
    AtomicUpdate driver name newName interval copied ↔
      ¬ CopyFails driver name newName interval copied := by
  unfold AtomicUpdate
  obtain ⟨same, error, fine⟩ | ⟨g, found, ways⟩ := updateGroup_ways driver name newName interval copied
  · refine iff_of_true ⟨fun _ other => by rw [same], fun done => absurd done error⟩ fine
  obtain ⟨rfl, done, result⟩ | ⟨different, copies, done, result⟩ |
    ⟨different, nonempty, free, fails, error, result⟩ := ways
  · refine iff_of_true ⟨fun error => absurd done error, fun _ => ?_⟩ ?_
    · obtain ⟨own, grp, inner⟩ := named name g found
      have each : EachGroup OneName
          (driver.setGroup name (g.setInterval (chosenInterval interval g))) :=
        each_insert named ⟨own, grp, inner⟩
      rw [result]
      refine ⟨⟨g, found, ?_⟩, fun apart => absurd rfl apart, fun other away _ => ?_, rfl, each,
        unique_of_oneName each⟩
      · rw [findGroup_setGroup, if_pos rfl, GroupT.setInterval, neuGroupSetInterval]
        congr 1
        obtain ⟨serial, ownName, timestamp, group, staticTags, wtTags, plugin⟩ := g
        obtain ⟨groupName, tags⟩ := plugin
        obtain ⟨innerName, groupTags, old, groupTime⟩ := group
        cases own
        cases grp
        cases inner
        rfl
      · rw [findGroup_setGroup, if_neg away]
    · rintro ⟨_, _, _, different, _⟩
      exact different rfl
  · refine iff_of_true ⟨fun error => absurd done error, fun _ => ?_⟩ ?_
    · have each : EachGroup OneName ({ driver with groups := driver.groups.erase name }.setGroup
          newName ((g.renamed newName).setInterval (chosenInterval interval g))) :=
        each_insert (each_erase named name) ⟨rfl, rfl, rfl⟩
      rw [result]
      refine ⟨⟨g, found, ?_⟩, fun _ => ?_, fun other away away' => ?_, rfl, each,
        unique_of_oneName each⟩
      · rw [findGroup_setGroup, if_pos rfl]
        rfl
      · rw [findGroup_setGroup, if_neg different, findGroup, Table.find_erase, if_pos rfl]
      · rw [findGroup_setGroup, if_neg away', findGroup, Table.find_erase, if_neg away]
        rfl
    · rintro ⟨_, _, _, _, _, failed, _⟩
      rw [copies] at failed
      cases failed
  · have errors : (neuAdapterDriverUpdateGroup driver name newName interval copied).2 ≠ 0 := error
    have kept := setInterval_unchanged (chosenInterval interval g) found
    rw [← result] at kept
    constructor
    · rintro ⟨unchanged, _⟩ ⟨g', found', _, _, _, _, other⟩
      cases found.symm.trans found'
      exact other (kept.1 (unchanged errors))
    · intro fine
      refine ⟨fun _ => kept.2 ?_, fun done => absurd done errors⟩
      by_contra other
      exact fine ⟨g, found, nonempty, different, free, fails, other⟩

end

def twoGroups : List GroupOp := [.addGroup groupA 1000, .addGroup groupB 1000]

theorem atomic_update_two : ∃ driver, twoGroups.foldlM groupStep newDriver = some driver ∧
    (AtomicUpdate driver groupA (.lit "c") 2000 true ↔
      ¬ CopyFails driver groupA (.lit "c") 2000 true) ∧
    (AtomicUpdate driver groupA groupB 2000 true ↔ ¬ CopyFails driver groupA groupB 2000 true) := by
  have ends : (twoGroups.foldlM groupStep newDriver).isSome = true := by decide +kernel
  obtain ⟨driver, ran⟩ := Option.isSome_iff_exists.1 ends
  exact ⟨driver, ran, atomic_update (reached_oneName ran), atomic_update (reached_oneName ran)⟩

/-- The copies of the new name fail, and the interval is 2000 all the same. -/
theorem interval_changes_alone :
    let driver := (neuReqAddGroup newDriver groupA 1000).1
    let result := neuAdapterDriverUpdateGroup driver groupA groupB 2000 false
    result.2 = NEU_ERR_EINTERNAL ∧
      (findGroup driver groupA).map GroupT.shown = some (groupA.val, 1000) ∧
      (findGroup result.1 groupA).map GroupT.shown = some (groupA.val, 2000) := by
  decide +kernel

end Cpm
