import Cpm.Driver.Groups
import Cpm.Lib.Run

/-! The tags that a driver stores, against what the validator of new tags asks. -/
namespace Cpm

open Lib Lib.Run

def StoresValid (_ : CStr) (g : GroupT) : Prop := ∀ tag ∈ g.group.tags.values, ValidTag tag

theorem storesValid_closed : Closed StoresValid where
  new _ _ _ := List.forall_mem_nil _
  setInterval _ _ _ valid := valid
  renamed _ _ _ valid := valid
  refreshed _ g g' valid same _ := by
    intro tag member
    rw [same] at member
    exact valid tag member

def stores (driver : NeuAdapterDriver) (group tag : CStr) : Bool :=
  (findGroup driver group).any fun g => (g.group.tags.find tag).isSome

structure UpdateBounds (tag : NeuDatatag) : Prop where
  address : tag.address.strlen ≠ NEU_TAG_ADDRESS_LEN
  description : tag.description.strlen ≠ NEU_TAG_DESCRIPTION_LEN
  attributes : ¬(neuTagAttributeTest tag NEU_ATTRIBUTE_SUBSCRIBE = true ∧
    neuTagAttributeTest tag NEU_ATTRIBUTE_STATIC = true)

section
variable {driver driver' : NeuAdapterDriver} {plugin : TagReturns} {group : CStr}

theorem inserted_valid {group : NeuGroup} {tag : NeuDatatag} (valid : ValidTag tag)
    (before : ∀ other ∈ group.tags.values, ValidTag other) :
    ∀ other ∈ (group.tags.insert tag.name tag).values, ValidTag other := by
  intro other member
  obtain rfl | old := Table.mem_values_insert member
  · exact valid
  · exact before other old

theorem addTag_valid {tag : NeuDatatag} (valid : ValidTag tag)
    (each : EachGroup StoresValid driver) (now : Int) :
    EachGroup StoresValid (neuAdapterDriverAddTag driver group tag now).1 := by
  refine driverAddTag_each storesValid_closed.new (fun g before => ?_) each
  unfold StoresValid neuGroupAddTag
  split
  · exact before
  · exact inserted_valid valid.parsed before

theorem delTag_valid (each : EachGroup StoresValid driver) (tag : CStr) (now : Int) :
    EachGroup StoresValid (neuAdapterDriverDelTag driver group tag now).1 := by
  refine driverDelTag_each (fun g before => ?_) each
  unfold StoresValid neuGroupDelTag
  split
  · intro other member
    exact before other (Table.mem_values_erase member)
  · exact before

theorem updateTag_valid {tag : NeuDatatag}
    (bounds : stores driver group tag.name = true → UpdateBounds tag)
    (each : EachGroup StoresValid driver) (now : Int) :
    EachGroup StoresValid (neuAdapterDriverUpdateTag plugin driver group tag now).1 := by
  unfold neuAdapterDriverUpdateTag
  split
  · exact each
  next name =>
  split
  · exact each
  next address =>
  split
  · exact each
  next description =>
  split
  · exact each
  next precision =>
  split
  · exact each
  split
  · exact each
  next g found =>
  have updated : StoresValid group
      { g with group := (neuGroupUpdateTag g.group tag.parsed now).1 } := by
    unfold neuGroupUpdateTag
    split
    · next present =>
      have reached : stores driver group tag.name = true := by
        rw [stores, found]
        exact present
      obtain ⟨edge, edge', attributes⟩ := bounds reached
      have valid : ValidTag tag := by
        refine ⟨by omega, by omega, by omega, UInt8.not_lt.1 precision, attributes⟩
      exact inserted_valid valid.parsed (each group g found)
    · exact each group g found
  exact each_insert each updated

theorem updateTag_keys (group : NeuGroup) (tag : NeuDatatag) (now : Int) (name : CStr) :
    ((neuGroupUpdateTag group tag now).1.tags.find name).isSome = (group.tags.find name).isSome := by
  unfold neuGroupUpdateTag
  split
  · next present =>
    rw [Table.find_insert]
    split
    · next same =>
      rw [same]
      exact present.symm
    · rfl
  · rfl

theorem updateTag_stores (plugin : TagReturns) (driver : NeuAdapterDriver) (group : CStr)
    (tag : NeuDatatag) (now : Int) (name : CStr) :
    stores (neuAdapterDriverUpdateTag plugin driver group tag now).1 group name =
      stores driver group name := by
  unfold neuAdapterDriverUpdateTag
  repeat' split
  case h_2 find found =>
    have here : findGroup (driver.setGroup group
        { find with group := (neuGroupUpdateTag find.group tag.parsed now).1 }) group =
          some { find with group := (neuGroupUpdateTag find.group tag.parsed now).1 } := by
      simp [findGroup, NeuAdapterDriver.setGroup, Table.find_insert]
    rw [stores, here, stores, found]
    exact updateTag_keys find.group tag.parsed now name
  all_goals rfl

theorem addTagLoop_valid {tags : List NeuDatatag} {error : Int} {now : Nat → Int} {i : Nat}
    (valid : ∀ tag ∈ tags, ValidTag tag) (each : EachGroup StoresValid driver) :
    EachGroup StoresValid (addTagLoop group now error i tags driver).1 := by
  induction tags generalizing driver i with
  | nil => exact each
  | cons tag rest ih =>
    obtain ⟨here, further⟩ := List.forall_mem_cons.1 valid
    have added : EachGroup StoresValid (neuAdapterDriverAddTag driver group tag (now i)).1 :=
      addTag_valid here each (now i)
    unfold addTagLoop
    simp only
    split
    · exact ih further added
    · exact tryDelTag_each added (rest.length + 1)

theorem reqAddTag_valid {tags : List DecodedTag} {now : Nat → Int}
    (each : EachGroup StoresValid driver) :
    EachGroup StoresValid (neuReqAddTag plugin driver group (tags.map DecodedTag.tag) now).1 := by
  have valid : ∀ tag ∈ (validateTags plugin (tags.map DecodedTag.tag)).1, ValidTag tag := by
    intro tag member
    obtain ⟨decoded, rfl, passed⟩ := (validateTags_valid plugin tags).1 tag member
    exact passed.parsed
  have tried (rv : Int) : EachGroup StoresValid (neuAdapterDriverTryAddTag driver group
      (validateTags plugin (tags.map DecodedTag.tag)).1 rv).1 := by
    unfold neuAdapterDriverTryAddTag
    split
    · exact each
    · exact each
  unfold neuReqAddTag
  simp only
  split
  · exact each
  split
  · exact addTagLoop_valid valid (tried plugin.addTags)
  · exact tried plugin.addTags

theorem updateTagLoop_valid {tags : List DecodedTag} {now : Nat → Int} {i : Nat}
    (bounds : ∀ tag ∈ tags, stores driver group tag.tag.name = true → UpdateBounds tag.tag)
    (each : EachGroup StoresValid driver) :
    EachGroup StoresValid
      (updateTagLoop plugin group now i (tags.map DecodedTag.tag) driver).1 := by
  induction tags generalizing driver i with
  | nil => exact each
  | cons decoded rest ih =>
    obtain ⟨here, further⟩ := List.forall_mem_cons.1 bounds
    have updated : EachGroup StoresValid
        (neuAdapterDriverUpdateTag plugin driver group decoded.tag (now i)).1 :=
      updateTag_valid here each (now i)
    unfold updateTagLoop
    simp only [List.map_cons]
    split
    · apply ih _ updated
      intro tag member reached
      rw [updateTag_stores] at reached
      exact further tag member reached
    · exact updated

theorem reqDelTag_valid {tags : List CStr} {now : Nat → Int} {i : Nat}
    (each : EachGroup StoresValid driver) :
    EachGroup StoresValid (neuReqDelTag group now i tags driver) := by
  induction tags generalizing driver i with
  | nil => exact each
  | cons tag rest ih => exact ih (delTag_valid each tag (now i))

end

/-- The tags that an UPDATE_TAG request reaches keep off the boundaries. -/
def UpdateAllowed (driver : NeuAdapterDriver) : GroupOp → Prop
  | .updateTags _ group tags _ =>
    ∀ tag ∈ tags, stores driver group tag.tag.name = true → UpdateBounds tag.tag
  | .addGroup _ _ | .updateGroup _ _ _ _ | .delGroup _ | .addTags _ _ _ _ | .delTags _ _ _
  | .readTick _ | .update _ _ _ _ _ _ | .updateError _ _ _ _ _ => True

theorem groupStep_valid (driver : NeuAdapterDriver) (op : GroupOp) (driver' : NeuAdapterDriver)
    (each : EachGroup StoresValid driver) (allowed : UpdateAllowed driver op)
    (stepped : groupStep driver op = some driver') : EachGroup StoresValid driver' := by
  apply groupStep_each storesValid_closed each stepped
  intro edits
  obtain ⟨plugin, group, tags, now, rfl⟩ | ⟨plugin, group, tags, now, rfl⟩ |
    ⟨group, tags, now, rfl⟩ := editsTags_cases edits
  · cases stepped
    exact reqAddTag_valid each
  · cases stepped
    exact updateTagLoop_valid allowed each
  · cases stepped
    exact reqDelTag_valid each

theorem stored_tags_valid (adapter : NeuAdapter) (intfFuns : DriverIntfFuns) (ops : List GroupOp)
    (driver : NeuAdapterDriver)
    (allowed : Along groupStep UpdateAllowed (neuAdapterDriverCreate adapter intfFuns) ops)
    (ran : ops.foldlM groupStep (neuAdapterDriverCreate adapter intfFuns) = some driver) :
    ∀ name g, findGroup driver name = some g → ∀ tag ∈ g.group.tags.values, ValidTag tag := by
  have start : EachGroup StoresValid (neuAdapterDriverCreate adapter intfFuns) := by
    intro name g found
    cases found
  exact invariant_of_step groupStep_valid start allowed ran

def addressOf (n : Nat) : DecodedTag :=
  ⟨{ readTemp.tag with address := ⟨List.replicate n 'x', by simp⟩ }, by simp [readTemp]⟩

/-- The longest address that fits in a buffer of `NEU_TAG_ADDRESS_LEN`. -/
theorem stored_tags_valid_longest : ∃ driver, [GroupOp.addTags accepting groupA [readTemp] fun _ => 5,
      .updateTags accepting groupA [addressOf 127] fun _ => 6].foldlM groupStep newDriver =
          some driver ∧
    ∀ name g, findGroup driver name = some g → ∀ tag ∈ g.group.tags.values, ValidTag tag := by
  have bounds : UpdateBounds (addressOf 127).tag := by
    refine ⟨?_, ?_, ?_⟩
    · simp [addressOf, CStr.strlen, NEU_TAG_ADDRESS_LEN]
    · decide
    · decide
  have allowed : Along groupStep UpdateAllowed newDriver
      [.addTags accepting groupA [readTemp] fun _ => 5,
        .updateTags accepting groupA [addressOf 127] fun _ => 6] := by
    refine ⟨trivial, fun _ _ => ⟨fun tag member _ => ?_, fun _ _ => trivial⟩⟩
    rw [List.mem_singleton.1 member]
    exact bounds
  obtain ⟨driver, ran⟩ : ∃ driver, [GroupOp.addTags accepting groupA [readTemp] fun _ => 5,
      .updateTags accepting groupA [addressOf 127] fun _ => 6].foldlM groupStep newDriver =
        some driver := Option.isSome_iff_exists.1 (by decide +kernel)
  exact ⟨driver, ran, stored_tags_valid newDriver.adapter ⟨false, false, false⟩ _ driver allowed ran⟩

/-- One character more is accepted and stored. -/
theorem long_address_stored : ∃ driver, [GroupOp.addTags accepting groupA [readTemp] fun _ => 5,
      .updateTags accepting groupA [addressOf 128] fun _ => 6].foldlM groupStep newDriver =
          some driver ∧
    ¬ ∀ name g, findGroup driver name = some g → ∀ tag ∈ g.group.tags.values, ValidTag tag := by
  have lengths : ([GroupOp.addTags accepting groupA [readTemp] fun _ => 5,
      .updateTags accepting groupA [addressOf 128] fun _ => 6].foldlM groupStep newDriver).bind
        (fun driver => (findGroup driver groupA).map fun g =>
          g.group.tags.values.map fun tag => tag.address.strlen) = some [128] := by decide +kernel
  obtain ⟨driver, ran, found⟩ := Option.bind_eq_some_iff.1 lengths
  obtain ⟨g, here, stored⟩ := Option.map_eq_some_iff.1 found
  refine ⟨driver, ran, fun valid => ?_⟩
  have inside : 128 ∈ g.group.tags.values.map fun tag => tag.address.strlen := by
    rw [stored]
    exact List.mem_cons_self ..
  obtain ⟨tag, member, length⟩ := List.mem_map.1 inside
  have short := (valid groupA g here tag member).address
  rw [length] at short
  exact absurd short (by decide)

end Cpm
