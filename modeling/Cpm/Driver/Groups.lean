import Cpm.Driver.Fitting

/-! What the operations do to the groups, one by one. -/
namespace Cpm

open Lib

section
variable {driver driver' : NeuAdapterDriver} {name : CStr} {g : GroupT}

theorem changeTest_group {cache cache' : NeuDriverCache} {g g' : GroupT}
    (tested : neuGroupChangeTest cache g = some (cache', g')) :
    g'.group = g.group ∧ g'.name = g.name := by
  unfold neuGroupChangeTest at tested
  split at tested
  · simp only [groupChange, Option.bind_eq_bind, Option.bind_eq_some_iff, Option.pure_def,
      Option.some.injEq, Prod.mk.injEq] at tested
    obtain ⟨_, _, _, _, _, _, _, _, _, rfl⟩ := tested
    exact ⟨rfl, rfl⟩
  · cases tested
    exact ⟨rfl, rfl⟩

theorem readTick_cases (ticked : readCallback driver name = some driver') :
    driver' = driver ∨ ∃ g cache' g', findGroup driver name = some g ∧ g'.group = g.group ∧
      g'.name = g.name ∧
      driver' = ({ driver with cache := cache' }.setGroup name g').record [.groupTimer g'.grp] := by
  unfold readCallback at ticked
  split at ticked
  · cases ticked
    exact .inl rfl
  next g found =>
  split at ticked
  · cases ticked
    exact .inl rfl
  simp only [Option.bind_eq_bind, Option.bind_eq_some_iff, Option.pure_def,
    Option.some.injEq] at ticked
  obtain ⟨⟨cache', g'⟩, tested, rfl⟩ := ticked
  obtain ⟨group, same⟩ := changeTest_group tested
  exact .inr ⟨g, cache', g', found, group, same, rfl⟩

theorem update_cases {band : DeadBand} {group : CStr} {tag : Option CStr} {timestamp : Int}
    {value : NeuDvalue}
    {data : List UInt8} {metas : List NeuTagMeta} {fresh : Nat}
    (updated : updateWithMeta band driver group tag timestamp value data metas fresh = some driver') :
    ∃ cache, driver' = { driver with cache } := by
  unfold updateWithMeta at updated
  split at updated
  · obtain ⟨cache, _, same⟩ := Option.bind_eq_some_iff.1 updated
    cases same
    exact ⟨cache, rfl⟩
  split at updated
  · cases updated
  split at updated
  · cases updated
    exact ⟨driver.cache, rfl⟩
  · obtain ⟨cache, _, same⟩ := Option.bind_eq_some_iff.1 updated
    cases same
    exact ⟨cache, rfl⟩

theorem delGroup_cases {error : Int}
    (deleted : neuAdapterDriverDelGroup driver name = some (driver', error)) :
    findGroup driver name = none ∧ driver' = driver ∨
      ∃ g cache, findGroup driver name = some g ∧
        driver' = { neuAdapterDriverTryDelTag { driver with groups := driver.groups.erase name }
          (neuGroupTagSize g.group) with cache } := by
  cases found : findGroup driver name with
  | none =>
    rw [neuAdapterDriverDelGroup, found] at deleted
    cases deleted
    exact .inl ⟨rfl, rfl⟩
  | some g =>
    simp only [neuAdapterDriverDelGroup, found, Option.bind_eq_bind, Option.bind_eq_some_iff,
      Option.pure_def, Option.some.injEq, Prod.mk.injEq] at deleted
    obtain ⟨_, _, cache, _, rfl, _⟩ := deleted
    exact .inr ⟨g, cache, rfl, rfl⟩

/- Properties of every group. -/

variable {Q : CStr → GroupT → Prop} {plugin : TagReturns} {group : CStr}

def EachGroup (Q : CStr → GroupT → Prop) (driver : NeuAdapterDriver) : Prop :=
  ∀ name g, findGroup driver name = some g → Q name g

theorem each_insert (each : EachGroup Q driver) (new : Q name g) :
    EachGroup Q (driver.setGroup name g) := by
  intro other h found
  obtain ⟨rfl, rfl⟩ | ⟨_, before⟩ := Table.find_insert_some found
  · exact new
  · exact each other h before

theorem each_erase (each : EachGroup Q driver) (name : CStr) :
    EachGroup Q { driver with groups := driver.groups.erase name } := by
  intro other h found
  exact each other h (Table.find_erase_some.1 found).2

theorem each_of_groups (each : EachGroup Q driver) (same : driver'.groups = driver.groups) :
    EachGroup Q driver' := by
  intro other h found
  rw [findGroup, same] at found
  exact each other h found

/-- Kept by what happens to a group outside its tags. -/
structure Closed (Q : CStr → GroupT → Prop) : Prop where
  new : ∀ serial name interval, Q name (newGroup serial name interval)
  setInterval : ∀ name g interval, Q name g → Q name (g.setInterval interval)
  renamed : ∀ name newName g, Q name g → Q newName (g.renamed newName)
  refreshed : ∀ name g g', Q name g → g'.group = g.group → g'.name = g.name → Q name g'

theorem addGroup_new (new : ∀ serial name interval, Q name (newGroup serial name interval))
    (each : EachGroup Q driver) (name : CStr) (interval : UInt32) :
    EachGroup Q (neuAdapterDriverAddGroup driver name interval).1 := by
  unfold neuAdapterDriverAddGroup
  split
  · exact each
  · have added := each_insert each (new driver.serials name interval)
    exact added

/-- Kept by what the requests do to the tags of a group. -/
structure TagsClosed (Q : CStr → GroupT → Prop) : Prop where
  new : ∀ serial name interval, Q name (newGroup serial name interval)
  addTag : ∀ name g tag now, Q name g →
    Q name { g with group := (neuGroupAddTag g.group tag now).1 }
  updateTag : ∀ name g tag now, Q name g →
    Q name { g with group := (neuGroupUpdateTag g.group tag now).1 }
  delTag : ∀ name g tag now, Q name g →
    Q name { g with group := (neuGroupDelTag g.group tag now).1 }

theorem tryDelTag_each (each : EachGroup Q driver) (n : Nat) :
    EachGroup Q (neuAdapterDriverTryDelTag driver n) :=
  each_of_groups each (tryDelTag_groups driver n)

theorem driverAddTag_each {tag : NeuDatatag} {now : Int}
    (new : ∀ serial name interval, Q name (newGroup serial name interval))
    (adds : ∀ g, Q group g → Q group { g with group := (neuGroupAddTag g.group tag.parsed now).1 })
    (each : EachGroup Q driver) : EachGroup Q (neuAdapterDriverAddTag driver group tag now).1 := by
  have target : EachGroup Q (groupOrNew driver group).1 ∧
      Q group (groupOrNew driver group).2 := by
    unfold groupOrNew
    split
    · next find found => exact ⟨each, each group find found⟩
    · exact ⟨addGroup_new new each group 3000, new _ _ _⟩
  have after : EachGroup Q ((groupOrNew driver group).1.setGroup group
      { (groupOrNew driver group).2 with
        group := (neuGroupAddTag (groupOrNew driver group).2.group tag.parsed now).1 }) :=
    each_insert target.1 (adds _ target.2)
  unfold neuAdapterDriverAddTag
  simp only
  split
  · exact after
  · exact after

theorem driverDelTag_each {tag : CStr} {now : Int}
    (dels : ∀ g, Q group g → Q group { g with group := (neuGroupDelTag g.group tag now).1 })
    (each : EachGroup Q driver) : EachGroup Q (neuAdapterDriverDelTag driver group tag now).1 := by
  unfold neuAdapterDriverDelTag
  split
  · exact each
  · next g found =>
    have after : EachGroup Q
        (driver.setGroup group { g with group := (neuGroupDelTag g.group tag now).1 }) :=
      each_insert each (dels g (each group g found))
    simp only
    split
    · exact tryDelTag_each after 1
    · exact after

theorem driverUpdateTag_each (closed : TagsClosed Q) (each : EachGroup Q driver) (tag : NeuDatatag)
    (now : Int) : EachGroup Q (neuAdapterDriverUpdateTag plugin driver group tag now).1 := by
  unfold neuAdapterDriverUpdateTag
  repeat' split
  all_goals try exact each
  next find found =>
    exact each_insert each (closed.updateTag group find tag.parsed now (each group find found))

theorem addTagLoop_each (closed : TagsClosed Q) (tags : List NeuDatatag) (error : Int)
    (now : Nat → Int) (i : Nat) (each : EachGroup Q driver) :
    EachGroup Q (addTagLoop group now error i tags driver).1 := by
  induction tags generalizing driver i with
  | nil => exact each
  | cons tag rest ih =>
    have added : EachGroup Q (neuAdapterDriverAddTag driver group tag (now i)).1 :=
      driverAddTag_each closed.new (fun g => closed.addTag group g tag.parsed (now i)) each
    unfold addTagLoop
    simp only
    split
    · exact ih (i + 1) added
    · exact tryDelTag_each added (rest.length + 1)

theorem reqAddTag_each (closed : TagsClosed Q) (tags : List NeuDatatag) (now : Nat → Int)
    (each : EachGroup Q driver) :
    EachGroup Q (neuReqAddTag plugin driver group tags now).1 := by
  have tried : EachGroup Q
      (neuAdapterDriverTryAddTag driver group (validateTags plugin tags).1 plugin.addTags).1 := by
    unfold neuAdapterDriverTryAddTag
    split
    · exact each
    · exact each
  unfold neuReqAddTag
  simp only
  split
  · exact each
  split
  · exact addTagLoop_each closed _ _ now 0 tried
  · exact tried

theorem updateTagLoop_each (closed : TagsClosed Q) (tags : List NeuDatatag) (now : Nat → Int)
    (i : Nat) (each : EachGroup Q driver) :
    EachGroup Q (updateTagLoop plugin group now i tags driver).1 := by
  induction tags generalizing driver i with
  | nil => exact each
  | cons tag rest ih =>
    have updated : EachGroup Q
        (neuAdapterDriverUpdateTag plugin driver group tag (now i)).1 :=
      driverUpdateTag_each closed each tag (now i)
    unfold updateTagLoop
    simp only
    split
    · exact ih (i + 1) updated
    · exact updated

theorem reqDelTag_each (closed : TagsClosed Q) (tags : List CStr) (now : Nat → Int) (i : Nat)
    (each : EachGroup Q driver) :
    EachGroup Q (neuReqDelTag group now i tags driver) := by
  induction tags generalizing driver i with
  | nil => exact each
  | cons tag rest ih =>
    exact ih (i + 1) (driverDelTag_each (fun g => closed.delTag group g tag (now i)) each)

def GroupOp.editsTags : GroupOp → Bool
  | .addTags _ _ _ _ | .updateTags _ _ _ _ | .delTags _ _ _ => true
  | .addGroup _ _ | .updateGroup _ _ _ _ | .delGroup _ | .readTick _ | .update _ _ _ _ _ _
  | .updateError _ _ _ _ _ => false

theorem editsTags_cases {op : GroupOp} (edits : op.editsTags = true) :
    (∃ plugin group tags now, op = .addTags plugin group tags now) ∨
      (∃ plugin group tags now, op = .updateTags plugin group tags now) ∨
      ∃ group tags now, op = .delTags group tags now := by
  cases op with
  | addTags plugin group tags now => exact .inl ⟨plugin, group, tags, now, rfl⟩
  | updateTags plugin group tags now => exact .inr (.inl ⟨plugin, group, tags, now, rfl⟩)
  | delTags group tags now => exact .inr (.inr ⟨group, tags, now, rfl⟩)
  | addGroup name interval => cases edits
  | updateGroup name newName interval copied => cases edits
  | delGroup name => cases edits
  | readTick name => cases edits
  | update band ref timestamp v metas fresh => cases edits
  | updateError band group timestamp value precision => cases edits

theorem groupStep_each {op : GroupOp} (closed : Closed Q) (each : EachGroup Q driver)
    (stepped : groupStep driver op = some driver')
    (tags : op.editsTags = true → EachGroup Q driver') : EachGroup Q driver' := by
  cases op with
  | addGroup group interval =>
    cases stepped
    unfold neuReqAddGroup
    split
    · exact each
    · exact addGroup_new closed.new each group interval
  | updateGroup group newName interval copied =>
    cases stepped
    obtain same | ⟨g, interval', found, same | ⟨_, same⟩⟩ :=
      updateGroup_cases driver group newName interval copied
    · rwa [same]
    · rw [same]
      exact each_insert each (closed.setInterval group g interval' (each group g found))
    · rw [same]
      have renamed := closed.renamed group newName g (each group g found)
      exact each_insert (each_erase each group) (closed.setInterval newName _ interval' renamed)
  | delGroup group =>
    obtain ⟨⟨after, error⟩, deleted, same⟩ := Option.map_eq_some_iff.1 stepped
    cases same
    obtain ⟨_, rfl⟩ | ⟨g, cache, _, rfl⟩ := delGroup_cases deleted
    · exact each
    · exact each_of_groups (each_erase each group) (tryDelTag_groups _ _)
  | addTags plugin group tags' now => exact tags rfl
  | updateTags plugin group tags' now => exact tags rfl
  | delTags group tags' now => exact tags rfl
  | readTick group =>
    obtain rfl | ⟨g, cache', g', found, same, named, rfl⟩ := readTick_cases stepped
    · exact each
    · have refreshed := closed.refreshed group g g' (each group g found) same named
      exact each_insert (each_of_groups each rfl) refreshed
  | update band ref timestamp v metas fresh =>
    rw [groupStep] at stepped
    obtain ⟨cache, rfl⟩ := update_cases stepped
    exact each
  | updateError band group timestamp value precision =>
    rw [groupStep] at stepped
    obtain ⟨cache, rfl⟩ := update_cases stepped
    exact each

end

end Cpm
