import Cpm.Driver.AddBatch
import Cpm.Driver.Orderly

/-! What requests to add and to update tags leave of a tag that was given to them. -/
namespace Cpm

open Lib Relation

def heldTag (driver : NeuAdapterDriver) (group name : CStr) : Option NeuDatatag :=
  (findGroup driver group).bind fun g => g.group.tags.find name

/-- The reading of the clock at which the tags of a group last changed. -/
def changedAt (driver : NeuAdapterDriver) (group : CStr) : Option Int :=
  (findGroup driver group).map fun g => g.group.timestamp

/-- The request takes the tag, and no tag behind it under the same name; `now` is its last reading of
the clock. -/
inductive Gives (driver : NeuAdapterDriver) (group : GroupName) (given : DecodedTag) :
    GroupOp → Int → Prop
  | added {plugin : TagReturns} {tags : List DecodedTag} {now : Nat → Int} {i : Nat}
      (listed : tags[i]? = some given)
      (taken : i < (neuReqAddTag plugin driver group (tags.map DecodedTag.tag) now).2.index) :
      Gives driver group given (.addTags plugin group tags now)
        (now ((neuReqAddTag plugin driver group (tags.map DecodedTag.tag) now).2.index - 1))
  | updated {plugin : TagReturns} {tags : List DecodedTag} {now : Nat → Int} {i : Nat}
      (listed : tags[i]? = some given)
      (taken : i < (neuReqUpdateTag plugin driver group (tags.map DecodedTag.tag) now).2.index)
      (last : ∀ j other, i < j →
        j < (neuReqUpdateTag plugin driver group (tags.map DecodedTag.tag) now).2.index →
        tags[j]? = some other → other.tag.name ≠ given.tag.name) :
      Gives driver group given (.updateTags plugin group tags now)
        (now ((neuReqUpdateTag plugin driver group (tags.map DecodedTag.tag) now).2.index - 1))

section
variable {driver driver' : NeuAdapterDriver} {plugin : TagReturns} {group : CStr}

theorem changedAt_congr (same : driver'.groups = driver.groups) (group : CStr) :
    changedAt driver' group = changedAt driver group := by
  rw [changedAt, changedAt, findGroup_congr same]

/- Adding. -/

theorem addTag_changedAt (driver : NeuAdapterDriver) (group : CStr) (tag : NeuDatatag) (now : Int) :
    changedAt (neuAdapterDriverAddTag driver group tag now).1 group =
      if (neuAdapterDriverAddTag driver group tag now).2 = 0 then some now
      else changedAt driver group := by
  have stored (driver : NeuAdapterDriver) (g : GroupT) :
      changedAt (driver.setGroup group g) group = some g.group.timestamp := by
    rw [changedAt, findGroup_setGroup, if_pos rfl]
    rfl
  unfold neuAdapterDriverAddTag
  cases present : ((groupOrNew driver group).2.group.tags.find tag.parsed.name).isSome with
  | false =>
    have success : neuGroupAddTag (groupOrNew driver group).2.group tag.parsed now =
        ({ (groupOrNew driver group).2.group with
          tags := (groupOrNew driver group).2.group.tags.insert tag.parsed.name tag.parsed
          timestamp := now }, NEU_ERR_SUCCESS) := by
      rw [neuGroupAddTag, present, if_neg Bool.false_ne_true]
    simp only [success, if_true]
    exact stored _ _
  | true =>
    have refused : neuGroupAddTag (groupOrNew driver group).2.group tag.parsed now =
        ((groupOrNew driver group).2.group, NEU_ERR_TAG_NAME_CONFLICT) := by
      rw [neuGroupAddTag, present, if_pos rfl]
    have conflict : NEU_ERR_TAG_NAME_CONFLICT ≠ 0 := by decide
    simp only [refused, NEU_ERR_SUCCESS, if_neg conflict]
    rw [stored]
    cases found : findGroup driver group with
    | some find => simp only [groupOrNew, changedAt, found, Option.map_some]
    | none =>
      -- a group that is new has no tag to be in conflict with
      simp only [groupOrNew, found] at present
      cases present

/-- The group changes when the last of the tags is taken. -/
theorem addTagLoop_changedAt (tags : List NeuDatatag) (error : Int) (now : Nat → Int) (i : Nat)
    (driver : NeuAdapterDriver) :
    let looped := addTagLoop group now error i tags driver
    changedAt looped.1 group =
      if looped.2.index = i then changedAt driver group else some (now (looped.2.index - 1)) := by
  induction tags generalizing driver i with
  | nil => simp [addTagLoop]
  | cons tag rest ih =>
    have here := addTag_changedAt driver group tag (now i)
    simp only [addTagLoop]
    split
    · next success =>
      obtain ⟨n, _, index, _⟩ := addTagLoop_prefix group now error rest
        (neuAdapterDriverAddTag driver group tag (now i)).1 (i + 1)
      rw [if_pos success] at here
      have beyond : ¬ i + 1 + n = i := by omega
      rw [ih, here, index, if_neg beyond]
      split
      · next none =>
        have last : i + 1 + n - 1 = i := by omega
        rw [last]
      · rfl
    · next refused =>
      rw [if_neg refused] at here
      have same := tryDelTag_groups (neuAdapterDriverAddTag driver group tag (now i)).1
        (rest.length + 1)
      rw [if_pos rfl, changedAt_congr same, here]

theorem reqAddTag_changedAt (tags : List NeuDatatag) (now : Nat → Int)
    (taken : (neuReqAddTag plugin driver group tags now).2.index ≠ 0) :
    changedAt (neuReqAddTag plugin driver group tags now).1 group =
      some (now ((neuReqAddTag plugin driver group tags now).2.index - 1)) := by
  revert taken
  unfold neuReqAddTag
  simp only
  split
  · exact fun taken => absurd rfl taken
  split
  · intro taken
    exact (addTagLoop_changedAt _ _ now 0 _).trans (if_neg taken)
  · exact fun taken => absurd rfl taken

theorem reqAddTag_held {tags : List NeuDatatag} {now : Nat → Int} {i : Nat} {tag : NeuDatatag}
    (listed : tags[i]? = some tag) (taken : i < (neuReqAddTag plugin driver group tags now).2.index) :
    heldTag (neuReqAddTag plugin driver group tags now).1 group tag.name = some tag.parsed := by
  have adds := reqAddTag_adds plugin driver group tags now
  have inside : (tag.name, tag.parsed) ∈
      tagTable (neuReqAddTag plugin driver group tags now).1 group := by
    have early : tag ∈ tags.take (neuReqAddTag plugin driver group tags now).2.index := by
      refine List.mem_of_getElem? (i := i) ?_
      rw [List.getElem?_take_of_lt taken, listed]
    rw [adds.table]
    exact List.mem_append_right _ (List.mem_map.2 ⟨tag, early, rfl⟩)
  unfold tagTable at inside
  unfold heldTag
  split at inside
  · next find found =>
    rw [found, Option.bind_some]
    exact Table.find_eq_some.2 inside
  · cases inside

/- Updating. -/

theorem updateTag_done (plugin : TagReturns) (driver : NeuAdapterDriver) (group : CStr)
    (tag : NeuDatatag) (now : Int) :
    let updated := neuAdapterDriverUpdateTag plugin driver group tag now
    (updated.2 = 0 ∧ ∃ find, findGroup driver group = some find ∧
      findGroup updated.1 group = some { find with
        group := { find.group with
          tags := find.group.tags.insert tag.name tag.parsed
          timestamp := now } }) ∨
    (updated.2 ≠ 0 ∧ findGroup updated.1 group = findGroup driver group) := by
  have left {error : Int} (refused : error ≠ 0) :
      (driver, error).2 ≠ 0 ∧ findGroup (driver, error).1 group = findGroup driver group :=
    ⟨refused, rfl⟩
  unfold neuAdapterDriverUpdateTag
  split
  · exact .inr (left (by decide))
  split
  · exact .inr (left (by decide))
  split
  · exact .inr (left (by decide))
  split
  · exact .inr (left (by decide))
  split
  · next refused =>
    simp only [Bool.and_eq_true, decide_eq_true_eq] at refused
    exact .inr (left refused.2)
  split
  · exact .inr (left (by decide))
  next find found =>
  cases present : (find.group.tags.find tag.parsed.name).isSome with
  | false =>
    have unknown : neuGroupUpdateTag find.group tag.parsed now =
        (find.group, NEU_ERR_TAG_NOT_EXIST) := by
      rw [neuGroupUpdateTag, present, if_neg Bool.false_ne_true]
    have refused : NEU_ERR_TAG_NOT_EXIST ≠ 0 := by decide
    refine .inr ⟨by rwa [unknown], ?_⟩
    rw [findGroup_setGroup, if_pos rfl, unknown, found]
  | true =>
    have replaced : neuGroupUpdateTag find.group tag.parsed now =
        ({ find.group with
          tags := find.group.tags.insert tag.parsed.name tag.parsed
          timestamp := now }, NEU_ERR_SUCCESS) := by
      rw [neuGroupUpdateTag, present, if_pos rfl]
    refine .inl ⟨by rw [replaced]; rfl, find, found, ?_⟩
    rw [findGroup_setGroup, if_pos rfl, replaced]
    rfl

theorem updateTag_held (plugin : TagReturns) (driver : NeuAdapterDriver) (group : CStr)
    (tag : NeuDatatag) (now : Int) (name : CStr) :
    heldTag (neuAdapterDriverUpdateTag plugin driver group tag now).1 group name =
      if (neuAdapterDriverUpdateTag plugin driver group tag now).2 = 0 ∧ name = tag.name then
        some tag.parsed
      else heldTag driver group name := by
  unfold heldTag
  obtain ⟨success, find, found, after⟩ | ⟨refused, same⟩ := updateTag_done plugin driver group tag now
  · rw [after, found, Option.bind_some, Option.bind_some, Table.find_insert]
    simp only [success, true_and]
  · rw [same, if_neg fun both => refused both.1]

theorem updateTag_changedAt (plugin : TagReturns) (driver : NeuAdapterDriver) (group : CStr)
    (tag : NeuDatatag) (now : Int) :
    changedAt (neuAdapterDriverUpdateTag plugin driver group tag now).1 group =
      if (neuAdapterDriverUpdateTag plugin driver group tag now).2 = 0 then some now
      else changedAt driver group := by
  unfold changedAt
  obtain ⟨success, find, found, after⟩ | ⟨refused, same⟩ := updateTag_done plugin driver group tag now
  · rw [after, if_pos success, Option.map_some]
  · rw [same, if_neg refused]

/-- How far the loop comes, and when the group changes. -/
theorem updateTagLoop_changedAt (plugin : TagReturns) (group : CStr) (tags : List NeuDatatag)
    (now : Nat → Int) (i : Nat) (driver : NeuAdapterDriver) :
    let looped := updateTagLoop plugin group now i tags driver
    i ≤ looped.2.index ∧ changedAt looped.1 group =
      if looped.2.index = i then changedAt driver group else some (now (looped.2.index - 1)) := by
  induction tags generalizing driver i with
  | nil => simp [updateTagLoop]
  | cons tag rest ih =>
    have here := updateTag_changedAt plugin driver group tag (now i)
    simp only [updateTagLoop]
    split
    · next success =>
      obtain ⟨far, changed⟩ := ih (i + 1) (neuAdapterDriverUpdateTag plugin driver group tag (now i)).1
      rw [if_pos success] at here
      refine ⟨by omega, ?_⟩
      rw [changed, here, if_neg (by omega : ¬ _ = i)]
      split
      · next none => rw [none, Nat.add_sub_cancel]
      · rfl
    · next refused =>
      rw [if_neg refused] at here
      exact ⟨le_rfl, by rw [if_pos rfl, here]⟩

theorem updateTagLoop_keeps {tags : List NeuDatatag} {now : Nat → Int} {i : Nat} {name : CStr}
    (others : ∀ j other, i + j < (updateTagLoop plugin group now i tags driver).2.index →
      tags[j]? = some other → other.name ≠ name) :
    heldTag (updateTagLoop plugin group now i tags driver).1 group name =
        heldTag driver group name := by
  induction tags generalizing driver i with
  | nil => rfl
  | cons tag rest ih =>
    have here := updateTag_held plugin driver group tag (now i) name
    simp only [updateTagLoop] at others ⊢
    split
    · next success =>
      rw [if_pos success] at others
      obtain ⟨far, _⟩ := updateTagLoop_changedAt plugin group rest now (i + 1)
        (neuAdapterDriverUpdateTag plugin driver group tag (now i)).1
      have other : tag.name ≠ name := others 0 tag (by omega) rfl
      rw [if_neg fun both => other both.2.symm] at here
      refine (ih fun j behind near listed => ?_).trans here
      exact others (j + 1) behind (by omega) listed
    · next refused => rw [here, if_neg fun both => refused both.1]

theorem updateTagLoop_held {tags : List NeuDatatag} {now : Nat → Int} {i k : Nat} {tag : NeuDatatag}
    (listed : tags[k]? = some tag)
    (taken : i + k < (updateTagLoop plugin group now i tags driver).2.index)
    (last : ∀ j other, k < j → i + j < (updateTagLoop plugin group now i tags driver).2.index →
      tags[j]? = some other → other.name ≠ tag.name) :
    heldTag (updateTagLoop plugin group now i tags driver).1 group tag.name = some tag.parsed := by
  induction tags generalizing driver i k with
  | nil => cases listed
  | cons first rest ih =>
    simp only [updateTagLoop] at taken last ⊢
    split
    · next success =>
      rw [if_pos success] at taken last
      cases k with
      | zero =>
        cases listed
        have here := updateTag_held plugin driver group tag (now i) tag.name
        rw [if_pos ⟨success, rfl⟩] at here
        refine (updateTagLoop_keeps fun j behind near listed => ?_).trans here
        exact last (j + 1) behind (Nat.succ_pos j) (by omega) listed
      | succ k =>
        refine ih listed (by omega) fun j other behind near inside => ?_
        exact last (j + 1) other (Nat.succ_lt_succ behind) (by omega) inside
    · next refused =>
      rw [if_neg refused] at taken
      exact absurd taken (Nat.not_lt.2 (Nat.le_add_right i k))

/- Requests as steps. -/

theorem changes_rest {clock : Int → Prop} (changes : Changes group clock driver driver') :
    driver'.adapter = driver.adapter ∧ driver'.cache = driver.cache ∧
      savedTimestamp driver' group = savedTimestamp driver group := by
  induction changes with
  | refl => exact ⟨rfl, rfl, rfl⟩
  | tail _ change ih =>
    obtain ⟨adapter, cache, saved⟩ := ih
    have stays := (change_saved change).trans saved
    cases change with
    | create _ _ _ | edit _ _ | record _ | count _ => exact ⟨adapter, cache, stays⟩

theorem changes_fitting {clock : Int → Prop} (fitting : Fitting driver.cache driver.groups)
    (changes : Changes group clock driver driver') : Fitting driver'.cache driver'.groups := by
  induction changes with
  | refl => exact fitting
  | tail _ change ih => exact change_fitting ih change

end

/-- What a request leaves of a tag that it takes. -/
structure Given (driver driver' : NeuAdapterDriver) (group : CStr) (tag : NeuDatatag) (now : Int) :
    Prop where
  orderly : Orderly driver'
  adapter : driver'.adapter = driver.adapter
  cache : driver'.cache = driver.cache
  held : ∃ g, findGroup driver' group = some g ∧ g.group.tags.find tag.name = some tag.parsed ∧
    g.group.timestamp = now ∧ g.timestamp = savedTimestamp driver group

theorem gives_given {driver driver' : NeuAdapterDriver} {group : GroupName} {given : DecodedTag}
    {op : GroupOp} {now : Int} (orderly : Orderly driver) (gives : Gives driver group given op now)
    (stepped : groupStep driver op = some driver') : Given driver driver' group given.tag now := by
  have keyed := groupStep_keyed orderly.keyed stepped
  have all (changes : Changes group (fun _ => True) driver driver')
      (held : heldTag driver' group given.tag.name = some given.tag.parsed)
      (changed : changedAt driver' group = some now) : Given driver driver' group given.tag now := by
    obtain ⟨adapter, cache, saved⟩ := changes_rest changes
    obtain ⟨g, found, inside⟩ := Option.bind_eq_some_iff.1 held
    obtain ⟨_, again, stamp⟩ := Option.map_eq_some_iff.1 changed
    cases found.symm.trans again
    have last : g.timestamp = savedTimestamp driver group := by
      rw [← saved, savedTimestamp, found]
      rfl
    exact ⟨⟨changes_fitting orderly.toFitting changes, keyed⟩, adapter, cache, g, found, inside, stamp,
      last⟩
  cases gives with
  | added listed taken =>
    cases stepped
    have listed' : _ = some given.tag := (List.getElem?_map ..).trans (congrArg _ listed)
    exact all (reqAddTag_changes fun _ _ => trivial) (reqAddTag_held listed' taken)
      (reqAddTag_changedAt _ _ (Nat.ne_of_gt (Nat.zero_lt_of_lt taken)))
  | @updated plugin tags clock i listed taken last =>
    cases stepped
    have listed' : _ = some given.tag := (List.getElem?_map ..).trans (congrArg _ listed)
    have away (j : Nat) (other : NeuDatatag) (behind : i < j)
        (near : 0 + j < (neuReqUpdateTag plugin driver group (tags.map DecodedTag.tag) clock).2.index)
        (inside : (tags.map DecodedTag.tag)[j]? = some other) : other.name ≠ given.tag.name := by
      rw [List.getElem?_map] at inside
      obtain ⟨decoded, at', rfl⟩ := Option.map_eq_some_iff.1 inside
      exact last j decoded behind (by omega) at'
    have held := updateTagLoop_held listed' (by rwa [Nat.zero_add]) away
    obtain ⟨_, changed⟩ := updateTagLoop_changedAt plugin group (tags.map DecodedTag.tag) clock 0 driver
    have moved : (updateTagLoop plugin group clock 0 (tags.map DecodedTag.tag) driver).2.index ≠ 0 :=
      Nat.ne_of_gt (Nat.zero_lt_of_lt taken)
    rw [if_neg moved] at changed
    exact all (updateTagLoop_changes fun _ _ _ => trivial) held changed

end Cpm
