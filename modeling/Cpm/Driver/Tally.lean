import Cpm.Driver.Groups
import Cpm.Lib.Run

/-! How many tags a driver holds, counts and has announced to its plugin. -/
namespace Cpm

open Lib Lib.Run

def GroupT.size (g : GroupT) : Nat := g.group.tags.values.length

def tagTotal (driver : NeuAdapterDriver) : Nat := driver.groups.total GroupT.size

def DriverEvent.announced : DriverEvent → Int
  | .addTags _ tags rv => if rv = 0 then tags.length else 0
  | .delTags n => -n
  | .groupTimer _ | .stored _ _ | .written _ _ | .response _ _ => 0

/-- What the plugin was told in successful calls of `add_tags`, less what it was told in calls of
`del_tags`. -/
def announced (driver : NeuAdapterDriver) : Int := (driver.events.map DriverEvent.announced).sum

def surplus (driver : NeuAdapterDriver) : UInt64 := driver.tagCnt - UInt64.ofNat (tagTotal driver)

def gap (driver : NeuAdapterDriver) : Int := announced driver - tagTotal driver

def keepsAccounts (driver : NeuAdapterDriver) : Prop :=
  driver.intfFuns.addTags = true ∧ driver.intfFuns.delTags = true

/-- From one state to the other the counter gains `extra` on the tags, and the announcements gain
`ahead`. -/
structure Follows (driver driver' : NeuAdapterDriver) (extra : UInt64) (ahead : Int) : Prop where
  funs : driver'.intfFuns = driver.intfFuns
  surplus : surplus driver' = surplus driver + extra
  gap : keepsAccounts driver → gap driver' = gap driver + ahead

section
variable {driver driver' driver'' : NeuAdapterDriver} {name : CStr} {g : GroupT}
  {extra extra' : UInt64} {ahead ahead' : Int}

theorem Follows.refl (driver : NeuAdapterDriver) : Follows driver driver 0 0 :=
  ⟨rfl, (UInt64.add_zero _).symm, fun _ => (add_zero _).symm⟩

theorem keepsAccounts_of_funs (same : driver'.intfFuns = driver.intfFuns)
    (accounts : keepsAccounts driver) : keepsAccounts driver' := by
  rwa [keepsAccounts, same]

theorem Follows.trans (first : Follows driver driver' extra ahead)
    (second : Follows driver' driver'' extra' ahead') :
    Follows driver driver'' (extra + extra') (ahead + ahead') := by
  refine ⟨second.funs.trans first.funs, ?_, fun accounts => ?_⟩
  · rw [second.surplus, first.surplus, UInt64.add_assoc]
  · have before := first.gap accounts
    have after := second.gap (keepsAccounts_of_funs first.funs accounts)
    omega

theorem follows_of_same (funs : driver'.intfFuns = driver.intfFuns)
    (count : driver'.tagCnt = driver.tagCnt) (told : announced driver' = announced driver)
    (total : tagTotal driver' = tagTotal driver) : Follows driver driver' 0 0 := by
  refine ⟨funs, ?_, fun _ => ?_⟩
  · rw [surplus, surplus, count, total, UInt64.add_zero]
  · rw [gap, gap, told, total, add_zero]

theorem count_follows (driver : NeuAdapterDriver) (extra : UInt64) :
    Follows driver { driver with tagCnt := driver.tagCnt + extra } extra 0 := by
  refine ⟨rfl, ?_, fun _ => (add_zero _).symm⟩
  change driver.tagCnt + extra - UInt64.ofNat (tagTotal driver) =
    driver.tagCnt - UInt64.ofNat (tagTotal driver) + extra
  grind

theorem tagTotal_setGroup (found : findGroup driver name = some g) (g' : GroupT) :
    tagTotal (driver.setGroup name g') + g.size = tagTotal driver + g'.size := by
  have before : tagTotal driver = g.size + (driver.groups.erase name).total GroupT.size :=
    Table.total_found found
  have after : tagTotal (driver.setGroup name g') =
      g'.size + (driver.groups.erase name).total GroupT.size :=
    Table.total_insert driver.groups name g'
  omega

theorem setGroup_follows (found : findGroup driver name = some g) (g' : GroupT) :
    Follows driver (driver.setGroup name g') (UInt64.ofNat g.size - UInt64.ofNat g'.size)
      (g.size - g'.size) := by
  have total := tagTotal_setGroup found g'
  refine ⟨rfl, ?_, fun _ => ?_⟩
  · have counts := congrArg UInt64.ofNat total
    rw [UInt64.ofNat_add, UInt64.ofNat_add] at counts
    have count : (driver.setGroup name g').tagCnt = driver.tagCnt := rfl
    rw [surplus, surplus, count]
    grind
  · have told : announced (driver.setGroup name g') = announced driver := rfl
    rw [gap, gap, told]
    omega

theorem resize_follows (found : findGroup driver name = some g) (g' : GroupT)
    (size : g'.size = g.size) : Follows driver (driver.setGroup name g') 0 0 := by
  have follows := setGroup_follows found g'
  rwa [size, UInt64.sub_self, sub_self] at follows

theorem announced_record (driver : NeuAdapterDriver) (event : DriverEvent) :
    announced (driver.record [event]) = announced driver + event.announced := by
  simp [announced, NeuAdapterDriver.record]

theorem record_follows (driver : NeuAdapterDriver) (event : DriverEvent) :
    Follows driver (driver.record [event]) 0 event.announced := by
  refine ⟨rfl, (UInt64.add_zero _).symm, fun _ => ?_⟩
  have total : tagTotal (driver.record [event]) = tagTotal driver := rfl
  rw [gap, gap, total, announced_record]
  omega

theorem addGroup_follows (driver : NeuAdapterDriver) (name : CStr) (interval : UInt32) :
    Follows driver (neuAdapterDriverAddGroup driver name interval).1 0 0 := by
  unfold neuAdapterDriverAddGroup
  split
  · exact .refl driver
  · next absent =>
    have total : (driver.groups.insert name (newGroup driver.serials name interval)).total
        GroupT.size = driver.groups.total GroupT.size := by
      rw [Table.total_insert, Table.total_absent absent]
      exact Nat.zero_add _
    exact follows_of_same rfl rfl rfl total

theorem tryAddTag_follows (driver : NeuAdapterDriver) (group : CStr) (tags : List NeuDatatag)
    (rv : Int) :
    Follows driver (neuAdapterDriverTryAddTag driver group tags rv).1 0
      (if (neuAdapterDriverTryAddTag driver group tags rv).2 = 0 then tags.length else 0) := by
  unfold neuAdapterDriverTryAddTag
  split
  · exact record_follows driver (.addTags group tags rv)
  · next without => exact ⟨rfl, (UInt64.add_zero _).symm, fun accounts => absurd accounts.1 without⟩

theorem tryDelTag_follows (driver : NeuAdapterDriver) (n : Nat) :
    Follows driver (neuAdapterDriverTryDelTag driver n) 0 (-n) := by
  unfold neuAdapterDriverTryDelTag
  split
  · exact record_follows driver (.delTags n)
  · next without => exact ⟨rfl, (UInt64.add_zero _).symm, fun accounts => absurd accounts.2 without⟩

/- One tag. -/

theorem addTag_size (group : NeuGroup) (tag : NeuDatatag) (now : Int) :
    (neuGroupAddTag group tag now).1.tags.values.length = group.tags.values.length +
      if (neuGroupAddTag group tag now).2 = 0 then 1 else 0 := by
  unfold neuGroupAddTag
  split
  · rfl
  · next absent =>
    have fresh : group.tags.find tag.name = none := by simpa using absent
    have perm := Table.insert_values_perm group.tags tag.name tag
    rw [Table.erase_absent fresh] at perm
    exact perm.length_eq

theorem delTag_size (group : NeuGroup) (tag : CStr) (now : Int) :
    group.tags.values.length = (neuGroupDelTag group tag now).1.tags.values.length +
      if (neuGroupDelTag group tag now).2 = 0 then 1 else 0 := by
  unfold neuGroupDelTag
  split
  · next present =>
    obtain ⟨old, found⟩ := Option.isSome_iff_exists.1 present
    exact (Table.values_perm found).length_eq
  · rfl

theorem updateTag_size (group : NeuGroup) (tag : NeuDatatag) (now : Int) :
    (neuGroupUpdateTag group tag now).1.tags.values.length = group.tags.values.length := by
  unfold neuGroupUpdateTag
  split
  · next present =>
    obtain ⟨old, found⟩ := Option.isSome_iff_exists.1 present
    have before := (Table.values_perm found).length_eq
    have after := (Table.insert_values_perm group.tags tag.name tag).length_eq
    exact after.trans before.symm
  · rfl

theorem groupOrNew_follows (driver : NeuAdapterDriver) (group : CStr) :
    Follows driver (groupOrNew driver group).1 0 0 := by
  unfold groupOrNew
  split
  · exact .refl driver
  · exact addGroup_follows driver group 3000

theorem grown_follows (found : findGroup driver name = some g) (g' : GroupT)
    (size : g'.size = g.size + 1) :
    Follows driver { driver.setGroup name g' with tagCnt := driver.tagCnt + 1 } 0 (-1) := by
  have follows := (setGroup_follows found g').trans (count_follows (driver.setGroup name g') 1)
  have level : UInt64.ofNat g.size - UInt64.ofNat g'.size + 1 = 0 := by
    rw [size, UInt64.ofNat_add]
    grind
  have behind : (g.size : Int) - g'.size + 0 = -1 := by omega
  rwa [level, behind] at follows

theorem shrunk_follows (found : findGroup driver name = some g) (g' : GroupT)
    (size : g.size = g'.size + 1) :
    Follows driver { neuAdapterDriverTryDelTag (driver.setGroup name g') 1 with
      tagCnt := (neuAdapterDriverTryDelTag (driver.setGroup name g') 1).tagCnt - 1 } 0 0 := by
  have told := (setGroup_follows found g').trans (tryDelTag_follows (driver.setGroup name g') 1)
  have follows := told.trans (count_follows _ (-1))
  have level : UInt64.ofNat g.size - UInt64.ofNat g'.size + 0 + -1 = 0 := by
    rw [size, UInt64.ofNat_add]
    grind
  have even : (g.size : Int) - g'.size + -(1 : Nat) + 0 = 0 := by omega
  rw [level, even, ← UInt64.sub_eq_add_neg] at follows
  exact follows

theorem addTag_result (driver : NeuAdapterDriver) (group : CStr) (tag : NeuDatatag) (now : Int) :
    (neuAdapterDriverAddTag driver group tag now).2 =
      (neuGroupAddTag (groupOrNew driver group).2.group tag.parsed now).2 := by
  unfold neuAdapterDriverAddTag
  simp only
  split <;> rfl

theorem addTag_follows (driver : NeuAdapterDriver) (group : GroupName) (tag : NeuDatatag)
    (now : Int) :
    Follows driver (neuAdapterDriverAddTag driver group tag now).1 0
      (if (neuAdapterDriverAddTag driver group tag now).2 = 0 then -1 else 0) := by
  obtain ⟨_, found⟩ := groupOrNew_changes (fun _ => True) driver group
  have before := groupOrNew_follows driver group
  have size := addTag_size (groupOrNew driver group).2.group tag.parsed now
  let g' : GroupT := { (groupOrNew driver group).2 with
    group := (neuGroupAddTag (groupOrNew driver group).2.group tag.parsed now).1 }
  rw [addTag_result]
  unfold neuAdapterDriverAddTag
  simp only
  split
  · next success =>
    have done : (neuGroupAddTag (groupOrNew driver group).2.group tag.parsed now).2 = 0 := success
    rw [if_pos done] at size ⊢
    exact before.trans (grown_follows found g' size)
  · next refused =>
    have failed : (neuGroupAddTag (groupOrNew driver group).2.group tag.parsed now).2 ≠ 0 := refused
    rw [if_neg failed] at size ⊢
    exact before.trans (resize_follows found g' size)

theorem delTag_follows (driver : NeuAdapterDriver) (group tag : CStr) (now : Int) :
    Follows driver (neuAdapterDriverDelTag driver group tag now).1 0 0 := by
  unfold neuAdapterDriverDelTag
  split
  · exact .refl driver
  · next g found =>
    have size := delTag_size g.group tag now
    let g' : GroupT := { g with group := (neuGroupDelTag g.group tag now).1 }
    simp only
    split
    · next success =>
      have done : (neuGroupDelTag g.group tag now).2 = 0 := success
      rw [if_pos done] at size
      exact shrunk_follows found g' size
    · next refused =>
      have failed : (neuGroupDelTag g.group tag now).2 ≠ 0 := refused
      rw [if_neg failed] at size
      exact resize_follows found g' size.symm

theorem updateTag_follows (plugin : TagReturns) (driver : NeuAdapterDriver) (group : CStr)
    (tag : NeuDatatag) (now : Int) :
    Follows driver (neuAdapterDriverUpdateTag plugin driver group tag now).1 0 0 := by
  have updated (g : GroupT) (found : findGroup driver group = some g) :
      Follows driver (driver.setGroup group
        { g with group := (neuGroupUpdateTag g.group tag.parsed now).1 }) 0 0 :=
    resize_follows found _ (updateTag_size g.group tag.parsed now)
  unfold neuAdapterDriverUpdateTag
  repeat' split
  all_goals first
    | exact .refl driver
    | exact updated _ ‹_›

/- The requests. -/

/-- Whether or not all tags are added, the plugin has heard of this many fewer. -/
theorem addTagLoop_follows (group : GroupName) (now : Nat → Int) (error : Int) (i : Nat)
    (tags : List NeuDatatag) (driver : NeuAdapterDriver) :
    Follows driver (addTagLoop group now error i tags driver).1 0 (-tags.length) := by
  induction tags generalizing i driver with
  | nil => exact .refl driver
  | cons tag rest ih =>
    have first := addTag_follows driver group tag (now i)
    unfold addTagLoop
    simp only
    split
    · next success =>
      rw [if_pos success] at first
      have both := first.trans (ih (i + 1) (neuAdapterDriverAddTag driver group tag (now i)).1)
      have count : (-1 : Int) + -rest.length = -(tag :: rest).length := by
        rw [List.length_cons]
        omega
      rwa [count] at both
    · next refused =>
      rw [if_neg refused] at first
      have both := first.trans (tryDelTag_follows _ (rest.length + 1))
      have count : (0 : Int) + -((rest.length + 1 : Nat) : Int) = -(tag :: rest).length := by simp
      rwa [count] at both

theorem reqAddTag_follows (plugin : TagReturns) (driver : NeuAdapterDriver) (group : GroupName)
    (tags : List NeuDatatag) (now : Nat → Int) :
    Follows driver (neuReqAddTag plugin driver group tags now).1 0 0 := by
  have tried := tryAddTag_follows driver group (validateTags plugin tags).1 plugin.addTags
  unfold neuReqAddTag
  simp only
  split
  · exact .refl driver
  split
  · next accepted =>
    rw [if_pos accepted] at tried
    have both := tried.trans (addTagLoop_follows group now (validateTags plugin tags).2 0
      (validateTags plugin tags).1 _)
    rwa [add_neg_cancel] at both
  · next refused =>
    rw [if_neg refused] at tried
    exact tried

theorem updateTagLoop_follows (plugin : TagReturns) (group : CStr) (now : Nat → Int) (i : Nat)
    (tags : List NeuDatatag) (driver : NeuAdapterDriver) :
    Follows driver (updateTagLoop plugin group now i tags driver).1 0 0 := by
  induction tags generalizing i driver with
  | nil => exact .refl driver
  | cons tag rest ih =>
    have first := updateTag_follows plugin driver group tag (now i)
    unfold updateTagLoop
    simp only
    split
    · exact first.trans (ih (i + 1) _)
    · exact first

theorem reqDelTag_follows (group : CStr) (now : Nat → Int) (i : Nat) (tags : List CStr)
    (driver : NeuAdapterDriver) : Follows driver (neuReqDelTag group now i tags driver) 0 0 := by
  induction tags generalizing i driver with
  | nil => exact .refl driver
  | cons tag rest ih => exact (delTag_follows driver group tag (now i)).trans (ih (i + 1) _)

theorem rename_follows {newName : CStr} {g' : GroupT} (found : findGroup driver name = some g)
    (absent : findGroup driver newName = none) (size : g'.size = g.size) :
    Follows driver ({ driver with groups := driver.groups.erase name }.setGroup newName g') 0 0 := by
  have gone : (driver.groups.erase name).find newName = none := by
    by_contra present
    obtain ⟨h, now⟩ := Option.ne_none_iff_exists'.1 present
    have before : findGroup driver newName = some h := (Table.find_erase_some.1 now).2
    rw [absent] at before
    cases before
  have total : ((driver.groups.erase name).insert newName g').total GroupT.size =
      driver.groups.total GroupT.size := by
    rw [Table.total_insert, Table.total_absent gone, Table.total_found found, size]
  exact follows_of_same rfl rfl rfl total

theorem updateGroup_follows (driver : NeuAdapterDriver) (name newName : CStr) (interval : UInt32)
    (copied : Bool) :
    Follows driver (neuAdapterDriverUpdateGroup driver name newName interval copied).1 0 0 := by
  obtain same | ⟨g, interval', found, same | ⟨⟨_, _, absent, _⟩, same⟩⟩ :=
    updateGroup_cases driver name newName interval copied
  · rw [same]
    exact .refl driver
  · rw [same]
    exact resize_follows found _ rfl
  · rw [same]
    exact rename_follows found absent rfl

/-- A group that leaves the table. Its number of tags is told in 16 bits. -/
theorem erase_follows (found : findGroup driver name = some g) :
    Follows driver (neuAdapterDriverTryDelTag { driver with groups := driver.groups.erase name }
      (neuGroupTagSize g.group)) (UInt64.ofNat g.size) (g.size - (g.size % 2 ^ 16 : ℕ)) := by
  have total : tagTotal driver = g.size + tagTotal { driver with groups := driver.groups.erase name } :=
    Table.total_found found
  have erased : Follows driver { driver with groups := driver.groups.erase name }
      (UInt64.ofNat g.size) g.size := by
    refine ⟨rfl, ?_, fun _ => ?_⟩
    · rw [surplus, surplus, total, UInt64.ofNat_add]
      grind
    · have told : announced { driver with groups := driver.groups.erase name } = announced driver :=
        rfl
      rw [gap, gap, told]
      omega
  have follows := erased.trans (tryDelTag_follows _ (neuGroupTagSize g.group))
  rwa [UInt64.add_zero] at follows

theorem cache_follows (driver : NeuAdapterDriver) (cache : NeuDriverCache) :
    Follows driver { driver with cache } 0 0 := follows_of_same rfl rfl rfl rfl

theorem delGroup_follows (found : findGroup driver name = some g) {error : Int}
    (deleted : neuAdapterDriverDelGroup driver name = some (driver', error)) :
    Follows driver driver' (UInt64.ofNat g.size) (g.size - (g.size % 2 ^ 16 : ℕ)) := by
  obtain ⟨absent, _⟩ | ⟨h, cache, here, rfl⟩ := delGroup_cases deleted
  · rw [absent] at found
    cases found
  · cases here.symm.trans found
    have follows := (erase_follows found).trans (cache_follows _ cache)
    rwa [UInt64.add_zero, add_zero] at follows

theorem readTick_follows (ticked : readCallback driver name = some driver') :
    Follows driver driver' 0 0 := by
  obtain rfl | ⟨g, cache', g', found, group, _, rfl⟩ := readTick_cases ticked
  · exact .refl driver'
  · have size : g'.size = g.size := by rw [GroupT.size, group, GroupT.size]
    have here : findGroup { driver with cache := cache' } name = some g := found
    have resized : Follows { driver with cache := cache' }
        ({ driver with cache := cache' }.setGroup name g') 0 0 := resize_follows here g' size
    have entered := (cache_follows driver cache').trans resized
    exact entered.trans (record_follows _ (.groupTimer g'.grp))

end

def deletedWithGroup (driver : NeuAdapterDriver) : GroupOp → Nat
  | .delGroup name => ((findGroup driver name).map GroupT.size).getD 0
  | .addGroup _ _ | .updateGroup _ _ _ _ | .addTags _ _ _ _ | .updateTags _ _ _ _ | .delTags _ _ _
  | .readTick _ | .update _ _ _ _ _ _ | .updateError _ _ _ _ _ => 0

theorem groupStep_follows {driver driver' : NeuAdapterDriver} {op : GroupOp}
    (stepped : groupStep driver op = some driver') :
    Follows driver driver' (UInt64.ofNat (deletedWithGroup driver op))
      (deletedWithGroup driver op - (deletedWithGroup driver op % 2 ^ 16 : ℕ)) := by
  cases op with
  | addGroup name interval =>
    cases stepped
    unfold neuReqAddGroup
    split
    · exact .refl driver
    · exact addGroup_follows driver name interval
  | updateGroup name newName interval copied =>
    cases stepped
    exact updateGroup_follows driver name newName interval copied
  | delGroup name =>
    obtain ⟨⟨after, error⟩, deleted, same⟩ := Option.map_eq_some_iff.1 stepped
    cases same
    cases found : findGroup driver name with
    | none =>
      rw [neuAdapterDriverDelGroup, found] at deleted
      cases deleted
      rw [deletedWithGroup, found]
      exact .refl driver
    | some g =>
      rw [deletedWithGroup, found]
      exact delGroup_follows found deleted
  | addTags plugin group tags now =>
    cases stepped
    exact reqAddTag_follows plugin driver group _ now
  | updateTags plugin group tags now =>
    cases stepped
    exact updateTagLoop_follows plugin group now 0 _ driver
  | delTags group tags now =>
    cases stepped
    exact reqDelTag_follows group now 0 tags driver
  | readTick name => exact readTick_follows stepped
  | update band ref timestamp v metas fresh =>
    rw [groupStep] at stepped
    obtain ⟨cache, rfl⟩ := update_cases stepped
    exact cache_follows driver cache
  | updateError band group timestamp value precision =>
    rw [groupStep] at stepped
    obtain ⟨cache, rfl⟩ := update_cases stepped
    exact cache_follows driver cache

/- The counter. -/

def EmptyDeleted (driver : NeuAdapterDriver) (op : GroupOp) : Prop := deletedWithGroup driver op = 0

instance (driver : NeuAdapterDriver) (op : GroupOp) : Decidable (EmptyDeleted driver op) :=
  inferInstanceAs (Decidable (deletedWithGroup driver op = 0))

theorem tag_cnt_total (adapter : NeuAdapter) (intfFuns : DriverIntfFuns) (ops : List GroupOp)
    (driver : NeuAdapterDriver)
    (allowed : Along groupStep EmptyDeleted (neuAdapterDriverCreate adapter intfFuns) ops)
    (ran : ops.foldlM groupStep (neuAdapterDriverCreate adapter intfFuns) = some driver) :
    driver.tagCnt = UInt64.ofNat (tagTotal driver) := by
  have start : surplus (neuAdapterDriverCreate adapter intfFuns) = 0 := by
    change (0 : UInt64) - UInt64.ofNat 0 = 0
    decide
  have preserved (before : NeuAdapterDriver) (op : GroupOp) (after : NeuAdapterDriver)
      (level : surplus before = 0) (empty : deletedWithGroup before op = 0)
      (stepped : groupStep before op = some after) : surplus after = 0 := by
    rw [(groupStep_follows stepped).surplus, level, empty]
    rfl
  have level := invariant_of_step preserved start allowed ran
  rw [surplus] at level
  grind

/-- A group is emptied before it is deleted, and another one keeps its tag. -/
theorem tag_cnt_total_emptied : ∃ driver, [GroupOp.addTags accepting groupA [readTemp] fun _ => 5,
      .addTags accepting groupB [readTemp] fun _ => 6, .delTags groupA [readTemp.tag.name] fun _ => 7,
      .delGroup groupA].foldlM groupStep newDriver = some driver ∧
    driver.tagCnt = UInt64.ofNat (tagTotal driver) := by
  obtain ⟨driver, ran⟩ : ∃ driver, [GroupOp.addTags accepting groupA [readTemp] fun _ => 5,
      .addTags accepting groupB [readTemp] fun _ => 6, .delTags groupA [readTemp.tag.name] fun _ => 7,
      .delGroup groupA].foldlM groupStep newDriver = some driver :=
    Option.isSome_iff_exists.1 (by decide +kernel)
  exact ⟨driver, ran, tag_cnt_total newDriver.adapter ⟨false, false, false⟩ _ driver
    (by decide +kernel) ran⟩

/-- The count stays when a group leaves with its tag. -/
theorem delGroup_keeps_count : ∃ driver, [GroupOp.addTags accepting groupA [readTemp] fun _ => 5,
      .delGroup groupA].foldlM groupStep newDriver = some driver ∧
    driver.tagCnt ≠ UInt64.ofNat (tagTotal driver) := by
  have counts : ([GroupOp.addTags accepting groupA [readTemp] fun _ => 5,
      .delGroup groupA].foldlM groupStep newDriver).map (fun driver =>
        (driver.tagCnt, tagTotal driver)) = some (1, 0) := by decide +kernel
  obtain ⟨driver, ran, both⟩ := Option.map_eq_some_iff.1 counts
  simp only [Prod.mk.injEq] at both
  refine ⟨driver, ran, ?_⟩
  rw [both.1, both.2]
  decide

end Cpm
