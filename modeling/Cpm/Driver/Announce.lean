import Cpm.Driver.Tally

/-! What a plugin is told of the tags that come and go. -/
namespace Cpm

open Lib Lib.Run

def Named (driver : NeuAdapterDriver) : Prop := EachGroup (fun name g => g.name = name) driver

theorem named_closed : Closed fun name g => g.name = name where
  new _ _ _ := rfl
  setInterval _ _ _ named := named
  renamed _ _ _ _ := rfl
  refreshed _ _ _ named _ same := same.trans named

section
variable {driver driver' : NeuAdapterDriver} {name : CStr} {g : GroupT}

theorem change_named {clock : Int → Prop} (named : Named driver)
    (change : Change name clock driver driver') : Named driver' := by
  cases change with
  | create interval absent short => exact each_insert named rfl
  | edit found edited =>
    have same := named name _ found
    exact each_insert named same
  | record quiet => exact named
  | count tagCnt => exact named

theorem changes_named {clock : Int → Prop} (named : Named driver)
    (changes : Changes name clock driver driver') : Named driver' := by
  induction changes with
  | refl => exact named
  | tail _ change ih => exact change_named ih change

theorem groupStep_named {op : GroupOp} (named : Named driver)
    (stepped : groupStep driver op = some driver') : Named driver' := by
  let clock : Int → Prop := fun _ => True
  apply groupStep_each named_closed named stepped
  intro edits
  obtain ⟨plugin, group, tags, now, rfl⟩ | ⟨plugin, group, tags, now, rfl⟩ |
    ⟨group, tags, now, rfl⟩ := editsTags_cases edits
  · cases stepped
    have changes : Changes group clock driver
        (neuReqAddTag plugin driver group (tags.map DecodedTag.tag) now).1 :=
      reqAddTag_changes fun _ _ => trivial
    exact changes_named named changes
  · cases stepped
    have changes : Changes group clock driver
        (updateTagLoop plugin group now 0 (tags.map DecodedTag.tag) driver).1 :=
      updateTagLoop_changes fun _ _ _ => trivial
    exact changes_named named changes
  · cases stepped
    have changes : Changes group clock driver (neuReqDelTag group now 0 tags driver) :=
      reqDelTag_changes fun _ _ _ => trivial
    exact changes_named named changes

theorem uninitLoop_follows (els : List GroupT) (perm : driver.groups.values.Perm els)
    (named : Named driver) (small : ∀ el ∈ els, el.size < 2 ^ 16) :
    ∃ extra, Follows driver (els.foldl (fun driver el =>
        neuAdapterDriverTryDelTag { driver with groups := driver.groups.erase el.name }
          (neuGroupTagSize el.group)) driver) extra 0 ∧
      (els.foldl (fun driver el =>
        neuAdapterDriverTryDelTag { driver with groups := driver.groups.erase el.name }
          (neuGroupTagSize el.group)) driver).groups.values = [] := by
  induction els generalizing driver with
  | nil => exact ⟨0, .refl driver, perm.eq_nil⟩
  | cons el rest ih =>
    obtain ⟨fits, further⟩ := List.forall_mem_cons.1 small
    obtain ⟨name, found⟩ := Table.mem_values.1 (perm.symm.subset (List.mem_cons_self ..))
    have same : el.name = name := named name el found
    subst same
    let next := neuAdapterDriverTryDelTag { driver with groups := driver.groups.erase el.name }
      (neuGroupTagSize el.group)
    have groups : next.groups = driver.groups.erase el.name := tryDelTag_groups _ _
    have others : next.groups.values.Perm rest := by
      rw [groups]
      exact ((Table.values_perm found).symm.trans perm).cons_inv
    have first := erase_follows found
    have whole : (el.size : Int) - (el.size % 2 ^ 16 : ℕ) = 0 := by omega
    rw [whole] at first
    obtain ⟨extra, follows, empty⟩ :=
      ih others (each_of_groups (each_erase named el.name) groups) further
    exact ⟨_, first.trans follows, empty⟩

end

/-- Groups are deleted while their numbers of tags fit in 16 bits. -/
def SmallDeleted (driver : NeuAdapterDriver) (op : GroupOp) : Prop :=
  deletedWithGroup driver op < 2 ^ 16

instance (driver : NeuAdapterDriver) (op : GroupOp) : Decidable (SmallDeleted driver op) :=
  inferInstanceAs (Decidable (deletedWithGroup driver op < 2 ^ 16))

structure Announced (driver : NeuAdapterDriver) : Prop where
  named : Named driver
  accounts : keepsAccounts driver
  level : gap driver = 0

theorem groupStep_announced (driver : NeuAdapterDriver) (op : GroupOp) (driver' : NeuAdapterDriver)
    (told : Announced driver) (small : SmallDeleted driver op)
    (stepped : groupStep driver op = some driver') : Announced driver' := by
  have follows := groupStep_follows stepped
  refine ⟨groupStep_named told.named stepped, keepsAccounts_of_funs follows.funs told.accounts, ?_⟩
  have gap := follows.gap told.accounts
  have level := told.level
  rw [SmallDeleted] at small
  omega

theorem plugin_tags_balanced (adapter : NeuAdapter) (intfFuns : DriverIntfFuns)
    (ops : List GroupOp) (driver : NeuAdapterDriver)
    (both : intfFuns.addTags = true ∧ intfFuns.delTags = true)
    (allowed : Along groupStep SmallDeleted (neuAdapterDriverCreate adapter intfFuns) ops)
    (ran : ops.foldlM groupStep (neuAdapterDriverCreate adapter intfFuns) = some driver) :
    announced driver = tagTotal driver ∧
      ((∀ g ∈ driver.groups.values, g.size < 2 ^ 16) →
        tagTotal (neuAdapterDriverUninit driver) = 0 ∧
          announced (neuAdapterDriverUninit driver) = 0) := by
  have empty : Named (neuAdapterDriverCreate adapter intfFuns) := by
    intro name g found
    cases found
  have start : Announced (neuAdapterDriverCreate adapter intfFuns) := ⟨empty, both, rfl⟩
  obtain ⟨named, accounts, level⟩ := invariant_of_step groupStep_announced start allowed ran
  refine ⟨by rw [gap] at level; omega, fun small => ?_⟩
  obtain ⟨extra, follows, empty⟩ := uninitLoop_follows driver.groups.values (.refl _) named small
  have gone : tagTotal (neuAdapterDriverUninit driver) = 0 := by
    rw [tagTotal, Table.total, neuAdapterDriverUninit, empty]
    rfl
  have after := follows.gap accounts
  rw [level, gap] at after
  refine ⟨gone, ?_⟩
  rw [← neuAdapterDriverUninit, gone] at after
  omega

def accountingDriver : NeuAdapterDriver :=
  neuAdapterDriverCreate newDriver.adapter ⟨true, true, false⟩

/-- The second batch fails at its first tag, which is there already. -/
theorem plugin_tags_balanced_half : ∃ driver, [GroupOp.addTags accepting groupA [readTemp] fun _ => 5,
      .addTags accepting groupA [readTemp, readPressure] fun _ => 6,
      .delTags groupA [readTemp.tag.name] fun _ => 7].foldlM groupStep accountingDriver = some driver ∧
    announced driver = tagTotal driver ∧ ((∀ g ∈ driver.groups.values, g.size < 2 ^ 16) →
      tagTotal (neuAdapterDriverUninit driver) = 0 ∧
          announced (neuAdapterDriverUninit driver) = 0) := by
  obtain ⟨driver, ran⟩ : ∃ driver, [GroupOp.addTags accepting groupA [readTemp] fun _ => 5,
      .addTags accepting groupA [readTemp, readPressure] fun _ => 6,
      .delTags groupA [readTemp.tag.name] fun _ => 7].foldlM groupStep accountingDriver = some driver :=
    Option.isSome_iff_exists.1 (by decide +kernel)
  exact ⟨driver, ran, plugin_tags_balanced newDriver.adapter ⟨true, true, false⟩ _ driver ⟨rfl, rfl⟩
    (by decide +kernel) ran⟩

/- A group of 65536 tags, which come in two batches. -/

def bitName (i : Nat) : CStr where
  chars := (List.range 17).map fun j => if i.testBit j then '1' else '0'
  noNul := by
    intro inside
    obtain ⟨j, _, same⟩ := List.mem_map.1 inside
    split at same <;> cases same

theorem bitName_injective {i j : Nat} (low : i < 2 ^ 17) (low' : j < 2 ^ 17)
    (same : bitName i = bitName j) : i = j := by
  apply Nat.eq_of_testBit_eq
  intro k
  by_cases inside : k < 17
  · have lists : (List.range 17).map (fun k => if i.testBit k then '1' else '0') =
        (List.range 17).map fun k => if j.testBit k then '1' else '0' := congrArg CStr.chars same
    have bits := List.map_inj_left.1 lists k (List.mem_range.2 inside)
    cases here : i.testBit k <;> cases there : j.testBit k <;> simp [here, there] at bits ⊢
  · have far : 2 ^ 17 ≤ 2 ^ k := Nat.pow_le_pow_right (by decide) (by omega)
    rw [Nat.testBit_lt_two_pow (by omega), Nat.testBit_lt_two_pow (by omega)]

def numbered (i : Nat) : DecodedTag :=
  ⟨{ readTemp.tag with name := bitName i }, by simp [readTemp]⟩

def batch (first n : Nat) : List DecodedTag := (List.range' first n).map numbered

theorem numbered_valid (i : Nat) :
    neuAdapterDriverValidateTag accepting (numbered i).tag = (0, (numbered i).tag.parsed) := by
  have short : (bitName i).strlen = 17 := by simp [CStr.strlen, bitName]
  have empty : CStr.empty.strlen = 0 := rfl
  simp [neuAdapterDriverValidateTag, numbered, short, empty, readTemp, NEU_TAG_NAME_LEN,
    NEU_TAG_ADDRESS_LEN, NEU_TAG_DESCRIPTION_LEN, NEU_TAG_FLOAG_PRECISION_MAX, accepting,
    NEU_ERR_SUCCESS, neuTagAttributeTest, NEU_ATTRIBUTE_READ, NEU_ATTRIBUTE_SUBSCRIBE,
    NEU_ATTRIBUTE_STATIC]

theorem validateTags_batch (l : List Nat) :
    validateTags accepting ((l.map numbered).map DecodedTag.tag) =
      (l.map fun i => (numbered i).tag.parsed, 0) := by
  induction l with
  | nil => rfl
  | cons i rest ih =>
    rw [List.map_cons, List.map_cons, validateTags, numbered_valid, ih]
    rfl

section
variable {driver : NeuAdapterDriver} {group : CStr} {names : List CStr} {now : Nat → Int}

/-- The group has tags of these names, and its arrays are still empty. -/
def Filled (driver : NeuAdapterDriver) (group : CStr) (names : List CStr) : Prop :=
  ∃ g, findGroup driver group = some g ∧ g.group.tags.keys = names ∧ g.cachedTags = []

theorem addTag_filled {tag : NeuDatatag} (filled : Filled driver group names)
    (fresh : tag.name ∉ names) (now : Int) :
    (neuAdapterDriverAddTag driver group tag now).2 = 0 ∧
      Filled (neuAdapterDriverAddTag driver group tag now).1 group (names ++ [tag.name]) := by
  obtain ⟨g, found, rfl, empty⟩ := filled
  have absent : g.group.tags.find tag.name = none := Table.find_eq_none.2 fresh
  have same : groupOrNew driver group = (driver, g) := by rw [groupOrNew, found]
  let group' : NeuGroup :=
    { g.group with tags := g.group.tags.insert tag.name tag.parsed, timestamp := now }
  have added : neuGroupAddTag g.group tag.parsed now = (group', 0) := by
    simp [neuGroupAddTag, absent, NEU_ERR_SUCCESS, group']
  have keys : group'.tags.keys = g.group.tags.keys ++ [tag.name] := by
    simp [Table.keys, Table.entries_insert absent, group']
  simp only [neuAdapterDriverAddTag, same, added, NEU_ERR_SUCCESS, if_true]
  refine ⟨trivial, { g with group := group' }, ?_, keys, empty⟩
  simp [findGroup, NeuAdapterDriver.setGroup, Table.find_insert]

theorem addTagLoop_filled {tags : List NeuDatatag} {error : Int} {i : Nat}
    (filled : Filled driver group names)
    (fresh : (names ++ tags.map NeuDatatag.name).Nodup) :
    Filled (addTagLoop group now error i tags driver).1 group
      (names ++ tags.map NeuDatatag.name) := by
  induction tags generalizing driver names i with
  | nil => simpa [addTagLoop] using filled
  | cons tag rest ih =>
    have away : tag.name ∉ names := by
      intro inside
      have apart := (List.nodup_append.1 fresh).2.2
      exact apart tag.name inside tag.name (List.mem_cons_self ..) rfl
    obtain ⟨success, next⟩ := addTag_filled filled away (now i)
    have further : ((names ++ [tag.name]) ++ rest.map NeuDatatag.name).Nodup := by
      simpa using fresh
    have ended := ih (i := i + 1) next further
    rw [addTagLoop]
    simp only [success, if_true]
    simpa using ended

theorem batch_filled {group : GroupName} {first n : Nat} (now : Nat → Int)
    (filled : Filled driver group names)
    (fresh : (names ++ (List.range' first (n + 1)).map bitName).Nodup) :
    Filled (neuReqAddTag accepting driver group ((batch first (n + 1)).map DecodedTag.tag) now).1 group
      (names ++ (List.range' first (n + 1)).map bitName) := by
  have valid : validateTags accepting ((batch first (n + 1)).map DecodedTag.tag) =
      ((List.range' first (n + 1)).map fun i => (numbered i).tag.parsed, 0) :=
    validateTags_batch (List.range' first (n + 1))
  have tagNames : ((List.range' first (n + 1)).map fun i => (numbered i).tag.parsed).map
      NeuDatatag.name = (List.range' first (n + 1)).map bitName := by
    rw [List.map_map]
    rfl
  have tried : Filled (neuAdapterDriverTryAddTag driver group
      ((List.range' first (n + 1)).map fun i => (numbered i).tag.parsed) 0).1 group names := by
    unfold neuAdapterDriverTryAddTag
    split
    · exact filled
    · exact filled
  rw [← tagNames] at fresh ⊢
  have ended : Filled (addTagLoop group now 0 0 ((List.range' first (n + 1)).map fun i =>
      (numbered i).tag.parsed) (neuAdapterDriverTryAddTag driver group
        ((List.range' first (n + 1)).map fun i => (numbered i).tag.parsed) 0).1).1 group _ :=
    addTagLoop_filled tried fresh
  have accepted : (neuAdapterDriverTryAddTag driver group
      ((List.range' first (n + 1)).map fun i => (numbered i).tag.parsed) 0).2 = 0 := by
    unfold neuAdapterDriverTryAddTag
    split <;> rfl
  have some : (List.range' first (n + 1)).map (fun i => (numbered i).tag.parsed) ≠ [] := by
    simp [List.range'_succ]
  rw [neuReqAddTag, valid]
  simp only [if_neg some, accepting, accepted, if_true]
  exact ended

theorem delGroup_filled (filled : Filled driver group names) :
    ∃ g driver' error, findGroup driver group = some g ∧ g.size = names.length ∧
      neuAdapterDriverDelGroup driver group = some (driver', error) := by
  obtain ⟨g, found, keys, empty⟩ := filled
  obtain ⟨static, other⟩ := List.append_eq_nil_iff.1 empty
  have size : g.size = names.length := by
    rw [← keys]
    simp [GroupT.size, Table.values, Table.keys]
  have done : (neuAdapterDriverDelGroup driver group).isSome := by
    simp [neuAdapterDriverDelGroup, found, static, other, cacheDelTags]
  obtain ⟨⟨driver', error⟩, deleted⟩ := Option.isSome_iff_exists.1 done
  exact ⟨g, driver', error, found, size, deleted⟩

end

theorem bitNames_nodup (first n : Nat) (low : first + n ≤ 2 ^ 17) :
    ((List.range' first n).map bitName).Nodup := by
  apply List.Nodup.map_on
  · intro i inside j inside' same
    obtain ⟨_, high⟩ := List.mem_range'_1.1 inside
    obtain ⟨_, high'⟩ := List.mem_range'_1.1 inside'
    exact bitName_injective (by omega) (by omega) same
  · exact List.nodup_range'

def twoBatches (n : Nat) : List GroupOp :=
  [.addGroup groupA 1000, .addTags accepting groupA (batch 0 (n + 1)) fun _ => 5,
    .addTags accepting groupA (batch (n + 1) (n + 1)) fun _ => 6, .delGroup groupA]

theorem accounting_announced : Announced accountingDriver := by
  have empty : Named accountingDriver := by
    intro name g found
    cases found
  exact ⟨empty, ⟨rfl, rfl⟩, rfl⟩

theorem twoBatches_gap (n : Nat) (low : 2 * (n + 1) ≤ 2 ^ 17) :
    ∃ driver, (twoBatches n).foldlM groupStep accountingDriver = some driver ∧
      gap driver = (2 * (n + 1) : ℕ) - (2 * (n + 1) % 2 ^ 16 : ℕ) := by
  let s₁ := (neuReqAddGroup accountingDriver groupA 1000).1
  let s₂ := (neuReqAddTag accepting s₁ groupA ((batch 0 (n + 1)).map DecodedTag.tag) fun _ => 5).1
  let s₃ := (neuReqAddTag accepting s₂ groupA
    ((batch (n + 1) (n + 1)).map DecodedTag.tag) fun _ => 6).1
  have told₁ : Announced s₁ := groupStep_announced accountingDriver (.addGroup groupA 1000) s₁
    accounting_announced (Nat.two_pow_pos 16) rfl
  have told₂ : Announced s₂ := groupStep_announced s₁
    (.addTags accepting groupA (batch 0 (n + 1)) fun _ => 5) s₂ told₁ (Nat.two_pow_pos 16) rfl
  have told₃ : Announced s₃ := groupStep_announced s₂
    (.addTags accepting groupA (batch (n + 1) (n + 1)) fun _ => 6) s₃ told₂ (Nat.two_pow_pos 16) rfl
  have whole : (List.range' 0 (n + 1)).map bitName ++ (List.range' (n + 1) (n + 1)).map bitName =
      (List.range' 0 (2 * (n + 1))).map bitName := by
    have joined : List.range' 0 (n + 1) ++ List.range' (0 + (n + 1)) (n + 1) =
        List.range' 0 (n + 1 + (n + 1)) := List.range'_append_1
    rw [zero_add, ← two_mul] at joined
    rw [← List.map_append, joined]
  have filled₁ : Filled s₁ groupA [] := ⟨newGroup 0 groupA 1000, rfl, rfl, rfl⟩
  have filled₂ : Filled s₂ groupA ([] ++ (List.range' 0 (n + 1)).map bitName) :=
    batch_filled _ filled₁ (bitNames_nodup 0 (n + 1) (by omega))
  rw [List.nil_append] at filled₂
  have fresh : ((List.range' 0 (n + 1)).map bitName ++
      (List.range' (n + 1) (n + 1)).map bitName).Nodup := by
    rw [whole]
    exact bitNames_nodup 0 (2 * (n + 1)) (by omega)
  have filled₃ := batch_filled (fun _ => 6) filled₂ fresh
  rw [whole] at filled₃
  obtain ⟨g, driver, error, found, size, deleted⟩ := delGroup_filled filled₃
  rw [List.length_map, List.length_range'] at size
  have stepped : groupStep s₃ (.delGroup groupA) = some driver := by
    rw [groupStep, deleted]
    rfl
  have last : [GroupOp.delGroup groupA].foldlM groupStep s₃ = some driver := run_cons stepped rfl
  have ran : (twoBatches n).foldlM groupStep accountingDriver = some driver := last
  refine ⟨driver, ran, ?_⟩
  have gained := (delGroup_follows found deleted).gap told₃.accounts
  rw [told₃.level, size] at gained
  omega

/-- 65536 tags are deleted, and the plugin hears of none. -/
theorem delGroup_tells_too_few : ∃ driver,
    (twoBatches 32767).foldlM groupStep accountingDriver = some driver ∧
      announced driver ≠ tagTotal driver := by
  obtain ⟨driver, ran, gained⟩ := twoBatches_gap 32767 (by decide)
  refine ⟨driver, ran, ?_⟩
  rw [gap] at gained
  omega

end Cpm
