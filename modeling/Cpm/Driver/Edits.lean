import Mathlib.Logic.Relation
import Cpm.Driver.GroupOps

/-! What a request about the tags of a group does to a driver, as single changes: a new group, an
edit of the tags, an event and a count. -/
namespace Cpm

open Lib Relation

structure TagFits (tag : NeuDatatag) : Prop where
  name : tag.name.strlen < NEU_TAG_NAME_LEN
  plain : ∀ u, tag.staticValue = some u → Cacheable ⟨tag.type, u, tag.precision⟩

theorem DecodedTag.fits (decoded : DecodedTag)
    (short : decoded.tag.name.strlen < NEU_TAG_NAME_LEN) : TagFits decoded.tag.parsed := by
  refine ⟨short, fun u stored => ?_⟩
  obtain ⟨bytes, ptr⟩ := decoded.decoded (Option.isSome_of_eq_some stored)
  exact ⟨ptr, fun is => absurd is bytes⟩

/-- An edit leaves the tags alone or takes a reading of the clock. -/
structure Edited (clock : Int → Prop) (group group' : NeuGroup) : Prop where
  stamped : (group'.tags = group.tags ∧ group'.timestamp = group.timestamp) ∨
    clock group'.timestamp
  values : ∀ tag ∈ group'.tags.values, tag ∈ group.tags.values ∨ TagFits tag

theorem unedited {clock : Int → Prop} {group group' : NeuGroup} (tags : group'.tags = group.tags)
    (timestamp : group'.timestamp = group.timestamp) : Edited clock group group' :=
  ⟨.inl ⟨tags, timestamp⟩, fun _ member => .inl (tags ▸ member)⟩

theorem inserted_values {group : NeuGroup} {tag : NeuDatatag} (fits : TagFits tag) :
    ∀ other ∈ (group.tags.insert tag.name tag).values, other ∈ group.tags.values ∨ TagFits other := by
  intro other member
  obtain rfl | old := Table.mem_values_insert member
  · exact .inr fits
  · exact .inl old

theorem addTag_edited {clock : Int → Prop} {group : NeuGroup} {tag : NeuDatatag} {now : Int}
    (fits : TagFits tag) (reads : clock now) :
    Edited clock group (neuGroupAddTag group tag now).1 := by
  unfold neuGroupAddTag
  split
  · exact unedited rfl rfl
  · exact ⟨.inr reads, inserted_values fits⟩

theorem updateTag_edited {clock : Int → Prop} {group : NeuGroup} {tag : NeuDatatag} {now : Int}
    (fits : TagFits tag) (reads : clock now) :
    Edited clock group (neuGroupUpdateTag group tag now).1 := by
  unfold neuGroupUpdateTag
  split
  · exact ⟨.inr reads, inserted_values fits⟩
  · exact unedited rfl rfl

theorem delTag_edited {clock : Int → Prop} {group : NeuGroup} (tag : CStr) {now : Int}
    (reads : clock now) : Edited clock group (neuGroupDelTag group tag now).1 := by
  unfold neuGroupDelTag
  split
  · exact ⟨.inr reads, fun _ member => .inl (Table.mem_values_erase member)⟩
  · exact unedited rfl rfl

def DriverEvent.quiet : DriverEvent → Bool
  | .groupTimer _ | .addTags _ _ _ | .delTags _ => true
  | .stored _ _ | .written _ _ | .response _ _ => false

inductive Change (group : CStr) (clock : Int → Prop) : NeuAdapterDriver → NeuAdapterDriver → Prop
  | create {driver : NeuAdapterDriver} (interval : UInt32) (absent : findGroup driver group = none)
      (short : group.strlen < NEU_GROUP_NAME_LEN) :
      Change group clock driver
        { driver.setGroup group (newGroup driver.serials group interval) with
          serials := driver.serials + 1 }
  | edit {driver : NeuAdapterDriver} {g : GroupT} {group' : NeuGroup}
      (found : findGroup driver group = some g) (edited : Edited clock g.group group') :
      Change group clock driver (driver.setGroup group { g with group := group' })
  | record {driver : NeuAdapterDriver} {event : DriverEvent} (quiet : event.quiet = true) :
      Change group clock driver (driver.record [event])
  | count {driver : NeuAdapterDriver} (tagCnt : UInt64) :
      Change group clock driver { driver with tagCnt }

abbrev Changes (group : CStr) (clock : Int → Prop) : NeuAdapterDriver → NeuAdapterDriver → Prop :=
  ReflTransGen (Change group clock)

section
variable {clock : Int → Prop} {driver : NeuAdapterDriver} {plugin : TagReturns}

theorem addGroup_changes (driver : NeuAdapterDriver) (name : GroupName) (interval : UInt32) :
    Changes name clock driver (neuAdapterDriverAddGroup driver name interval).1 := by
  unfold neuAdapterDriverAddGroup
  split
  · exact .refl
  · next absent => exact .single (.create interval absent name.property)

theorem tryAddTag_changes (group : CStr) (tags : List NeuDatatag) (rv : Int) :
    Changes group clock driver (neuAdapterDriverTryAddTag driver group tags rv).1 := by
  unfold neuAdapterDriverTryAddTag
  split
  · exact .single (.record rfl)
  · exact .refl

theorem tryDelTag_changes (group : CStr) (n : Nat) :
    Changes group clock driver (neuAdapterDriverTryDelTag driver n) := by
  unfold neuAdapterDriverTryDelTag
  split
  · exact .single (.record rfl)
  · exact .refl

theorem groupOrNew_changes (clock : Int → Prop) (driver : NeuAdapterDriver) (group : GroupName) :
    Changes group clock driver (groupOrNew driver group).1 ∧
      findGroup (groupOrNew driver group).1 group = some (groupOrNew driver group).2 := by
  unfold groupOrNew
  split
  · next found => exact ⟨.refl, found⟩
  · next absent =>
    refine ⟨addGroup_changes driver group 3000, ?_⟩
    have added : (neuAdapterDriverAddGroup driver group 3000).1 =
        { driver.setGroup group (newGroup driver.serials group 3000) with
          serials := driver.serials + 1 } := by
      rw [neuAdapterDriverAddGroup, absent]
    rw [added, findGroup, NeuAdapterDriver.setGroup, Table.find_insert, if_pos rfl]

theorem addTag_changes {group : GroupName} {tag : NeuDatatag} {now : Int}
    (fits : TagFits tag.parsed) (reads : clock now) :
    Changes group clock driver (neuAdapterDriverAddTag driver group tag now).1 := by
  obtain ⟨before, found⟩ := groupOrNew_changes clock driver group
  have after := before.tail (.edit found (addTag_edited fits reads))
  unfold neuAdapterDriverAddTag
  simp only
  split
  · exact after.tail (.count _)
  · exact after

theorem delTag_changes (tag : CStr) {group : CStr} {now : Int} (reads : clock now) :
    Changes group clock driver (neuAdapterDriverDelTag driver group tag now).1 := by
  unfold neuAdapterDriverDelTag
  split
  · exact .refl
  · next find found =>
    have after : Changes group clock driver
        (driver.setGroup group { find with group := (neuGroupDelTag find.group tag now).1 }) :=
      .single (.edit found (delTag_edited tag reads))
    simp only
    split
    · exact (after.trans (tryDelTag_changes group 1)).tail (.count _)
    · exact after

theorem updateTag_changes (decoded : DecodedTag) {group : CStr} {now : Int} (reads : clock now) :
    Changes group clock driver
      (neuAdapterDriverUpdateTag plugin driver group decoded.tag now).1 := by
  unfold neuAdapterDriverUpdateTag
  split
  · exact .refl
  · next short =>
    have fits := decoded.fits (Nat.lt_of_not_le short)
    repeat' split
    all_goals first
      | exact .refl
      | exact .single (.edit ‹_› (updateTag_edited fits reads))

theorem addTagLoop_changes {group : GroupName} {tags : List NeuDatatag} {error : Int}
    {now : Nat → Int} {i : Nat} (fits : ∀ tag ∈ tags, TagFits tag.parsed)
    (reads : ∀ j, i ≤ j → j < i + tags.length → clock (now j)) :
    Changes group clock driver (addTagLoop group now error i tags driver).1 := by
  induction tags generalizing driver i with
  | nil => exact .refl
  | cons tag rest ih =>
    obtain ⟨here, further⟩ := List.forall_mem_cons.1 fits
    rw [List.length_cons] at reads
    have added : Changes group clock driver (neuAdapterDriverAddTag driver group tag (now i)).1 :=
      addTag_changes here (reads i le_rfl (by omega))
    unfold addTagLoop
    simp only
    split
    · exact added.trans (ih further fun j low high => reads j (by omega) (by omega))
    · exact added.trans (tryDelTag_changes group.val (rest.length + 1))

theorem updateTagLoop_changes {group : CStr} {tags : List DecodedTag} {now : Nat → Int} {i : Nat}
    (reads : ∀ j, i ≤ j → j < i + tags.length → clock (now j)) :
    Changes group clock driver
      (updateTagLoop plugin group now i (tags.map DecodedTag.tag) driver).1 := by
  induction tags generalizing driver i with
  | nil => exact .refl
  | cons decoded rest ih =>
    rw [List.length_cons] at reads
    have updated : Changes group clock driver
        (neuAdapterDriverUpdateTag plugin driver group decoded.tag (now i)).1 :=
      updateTag_changes decoded (reads i le_rfl (by omega))
    unfold updateTagLoop
    simp only [List.map_cons]
    split
    · exact updated.trans (ih fun j low high => reads j (by omega) (by omega))
    · exact updated

theorem reqDelTag_changes {group : CStr} {tags : List CStr} {now : Nat → Int} {i : Nat}
    (reads : ∀ j, i ≤ j → j < i + tags.length → clock (now j)) :
    Changes group clock driver (neuReqDelTag group now i tags driver) := by
  induction tags generalizing driver i with
  | nil => exact .refl
  | cons tag rest ih =>
    rw [List.length_cons] at reads
    have deleted : Changes group clock driver
        (neuAdapterDriverDelTag driver group tag (now i)).1 :=
      delTag_changes tag (reads i le_rfl (by omega))
    exact deleted.trans (ih fun j low high => reads j (by omega) (by omega))

structure ValidTag (tag : NeuDatatag) : Prop where
  name : tag.name.strlen < NEU_TAG_NAME_LEN
  address : tag.address.strlen < NEU_TAG_ADDRESS_LEN
  description : tag.description.strlen < NEU_TAG_DESCRIPTION_LEN
  precision : tag.precision ≤ NEU_TAG_FLOAG_PRECISION_MAX
  attributes : ¬(neuTagAttributeTest tag NEU_ATTRIBUTE_SUBSCRIBE = true ∧
    neuTagAttributeTest tag NEU_ATTRIBUTE_STATIC = true)

theorem ValidTag.parsed {tag : NeuDatatag} (valid : ValidTag tag) : ValidTag tag.parsed :=
  ⟨valid.name, valid.address, valid.description, valid.precision, valid.attributes⟩

theorem validateTag_success {tag : NeuDatatag}
    (passes : (neuAdapterDriverValidateTag plugin tag).1 = 0) :
    (neuAdapterDriverValidateTag plugin tag).2 = tag.parsed ∧ ValidTag tag := by
  revert passes
  unfold neuAdapterDriverValidateTag
  split
  · simp [NEU_ERR_TAG_NAME_TOO_LONG]
  next name =>
  split
  · simp [NEU_ERR_TAG_ADDRESS_TOO_LONG]
  next address =>
  split
  · simp [NEU_ERR_TAG_DESCRIPTION_TOO_LONG]
  next description =>
  split
  · simp [NEU_ERR_TAG_PRECISION_INVALID]
  next precision =>
  split
  · simp [NEU_ERR_TAG_ATTRIBUTE_NOT_SUPPORT]
  next attributes =>
  split
  · next refused =>
    simp only [Bool.and_eq_true, decide_eq_true_eq] at refused
    exact fun passes => absurd passes refused.2
  · rw [Bool.and_eq_true] at attributes
    intro _
    exact ⟨rfl, Nat.lt_of_not_le name, Nat.lt_of_not_le address, Nat.lt_of_not_le description,
      UInt8.not_lt.1 precision, attributes⟩

/-- The tags that pass are valid, and there are no more of them than came in. -/
theorem validateTags_valid (plugin : TagReturns) (tags : List DecodedTag) :
    (∀ tag ∈ (validateTags plugin (tags.map DecodedTag.tag)).1,
        ∃ decoded : DecodedTag, tag = decoded.tag.parsed ∧ ValidTag decoded.tag) ∧
      (validateTags plugin (tags.map DecodedTag.tag)).1.length ≤ tags.length := by
  induction tags with
  | nil => exact ⟨List.forall_mem_nil _, le_rfl⟩
  | cons decoded rest ih =>
    obtain ⟨further, fewer⟩ := ih
    simp only [List.map_cons, validateTags]
    split
    · next passes =>
      obtain ⟨parsed, valid⟩ := validateTag_success passes
      refine ⟨List.forall_mem_cons.2 ⟨⟨decoded, parsed, valid⟩, further⟩, ?_⟩
      simpa using fewer
    · exact ⟨List.forall_mem_nil _, Nat.zero_le _⟩

theorem validateTags_fits (plugin : TagReturns) (tags : List DecodedTag) :
    (∀ tag ∈ (validateTags plugin (tags.map DecodedTag.tag)).1, TagFits tag.parsed) ∧
      (validateTags plugin (tags.map DecodedTag.tag)).1.length ≤ tags.length := by
  obtain ⟨passed, fewer⟩ := validateTags_valid plugin tags
  refine ⟨fun tag member => ?_, fewer⟩
  obtain ⟨decoded, rfl, valid⟩ := passed tag member
  have once := decoded.fits valid.name
  exact ⟨once.name, once.plain⟩

theorem reqAddTag_changes {group : GroupName} {tags : List DecodedTag} {now : Nat → Int}
    (reads : ∀ i, i < tags.length → clock (now i)) :
    Changes group clock driver
      (neuReqAddTag plugin driver group (tags.map DecodedTag.tag) now).1 := by
  obtain ⟨fits, fewer⟩ := validateTags_fits plugin tags
  unfold neuReqAddTag
  simp only
  split
  · exact .refl
  · have tried : Changes group clock driver (neuAdapterDriverTryAddTag driver group
        (validateTags plugin (tags.map DecodedTag.tag)).1 plugin.addTags).1 :=
      tryAddTag_changes group.val _ _
    split
    · exact tried.trans (addTagLoop_changes fits fun j _ high => reads j (by omega))
    · exact tried

end

end Cpm
