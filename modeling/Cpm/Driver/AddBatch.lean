import Cpm.Driver.Fitting

/-! A request to add tags keeps a prefix of its list: of the tags that are valid, those in front of
the first that is there already, if the plugin takes them. -/
namespace Cpm

open Lib

def tagEntries (tags : List NeuDatatag) : List (CStr × NeuDatatag) :=
  tags.map fun tag => (tag.name, tag.parsed)

/-- The tag table of a group; a group that is not there has none. -/
def tagTable (driver : NeuAdapterDriver) (group : CStr) : List (CStr × NeuDatatag) :=
  match findGroup driver group with
  | some find => find.group.tags.entries
  | none => []

/-- How many names of a list are new, each after the ones in front of it. -/
def newNames (taken : List CStr) : List CStr → Nat
  | [] => 0
  | name :: rest => if name ∈ taken then 0 else newNames (taken ++ [name]) rest + 1

/-- What the three passes leave of a list: the tags in front of the first invalid one, none if the
plugin refuses these, and of these the ones in front of the first name that is there. -/
def addedCount (plugin : TagReturns) (driver : NeuAdapterDriver) (group : CStr)
    (tags : List NeuDatatag) : Nat :=
  if driver.intfFuns.addTags = true ∧ plugin.addTags ≠ 0 then 0
  else newNames ((tagTable driver group).map Prod.fst)
    ((tags.takeWhile fun tag => (neuAdapterDriverValidateTag plugin tag).1 = 0).map NeuDatatag.name)

structure AddsPrefix (plugin : TagReturns) (driver : NeuAdapterDriver) (group : CStr)
    (tags : List NeuDatatag) (driver' : NeuAdapterDriver) (resp : NeuRespTag) : Prop where
  index : resp.index = addedCount plugin driver group tags
  within : resp.index ≤ tags.length
  table : tagTable driver' group = tagTable driver group ++ tagEntries (tags.take resp.index)
  others : ∀ other, other ≠ group → findGroup driver' other = findGroup driver other
  whole : resp.error = 0 ↔ resp.index = tags.length

section
variable {driver : NeuAdapterDriver} {group : CStr}

theorem setGroup_table (driver : NeuAdapterDriver) (group : CStr) (g : GroupT) :
    tagTable (driver.setGroup group g) group = g.group.tags.entries := by
  rw [tagTable, findGroup_setGroup, if_pos rfl]

theorem setGroup_others (driver : NeuAdapterDriver) (group : CStr) (g : GroupT) :
    ∀ other, other ≠ group → findGroup (driver.setGroup group g) other = findGroup driver other := by
  intro other away
  rw [findGroup_setGroup, if_neg away]

theorem groupOrNew_table (driver : NeuAdapterDriver) (group : CStr) :
    (groupOrNew driver group).2.group.tags.entries = tagTable driver group ∧
      ∀ other, other ≠ group →
        findGroup (groupOrNew driver group).1 other = findGroup driver other := by
  unfold groupOrNew tagTable neuAdapterDriverAddGroup
  cases found : findGroup driver group with
  | some find => exact ⟨rfl, fun _ _ => rfl⟩
  | none => exact ⟨rfl, setGroup_others driver group _⟩

theorem groupAddTag_entries (group : NeuGroup) (tag : NeuDatatag) (now : Int) :
    (neuGroupAddTag group tag now).1.tags.entries =
      group.tags.entries ++ if (neuGroupAddTag group tag now).2 = 0 then [(tag.name, tag)] else [] := by
  unfold neuGroupAddTag
  split
  · exact (List.append_nil _).symm
  · next free => exact Table.entries_insert (by simpa using free) tag

theorem addTag_table (driver : NeuAdapterDriver) (group : CStr) (tag : NeuDatatag) (now : Int) :
    tagTable (neuAdapterDriverAddTag driver group tag now).1 group = tagTable driver group ++
        (if (neuAdapterDriverAddTag driver group tag now).2 = 0 then tagEntries [tag] else []) ∧
      ∀ other, other ≠ group →
        findGroup (neuAdapterDriverAddTag driver group tag now).1 other = findGroup driver other := by
  obtain ⟨table, others⟩ := groupOrNew_table driver group
  have entered := groupAddTag_entries (groupOrNew driver group).2.group tag.parsed now
  rw [table] at entered
  have stored (g : GroupT) : ∀ other, other ≠ group →
      findGroup ((groupOrNew driver group).1.setGroup group g) other = findGroup driver other := by
    intro other away
    rw [setGroup_others _ _ _ other away, others other away]
  unfold neuAdapterDriverAddTag
  simp only
  split
  · next success => exact ⟨(setGroup_table _ group _).trans entered, stored _⟩
  · next refused => exact ⟨(setGroup_table _ group _).trans entered, stored _⟩

theorem addTag_fresh (driver : NeuAdapterDriver) (group : CStr) (tag : NeuDatatag) (now : Int) :
    (neuAdapterDriverAddTag driver group tag now).2 = 0 ↔
      tag.name ∉ (tagTable driver group).map Prod.fst := by
  have table := (groupOrNew_table driver group).1
  have taken : ((groupOrNew driver group).2.group.tags.find tag.parsed.name).isSome = true ↔
      tag.name ∈ (tagTable driver group).map Prod.fst := by
    rw [Table.find_isSome, Table.keys, table]
    rfl
  have same : (neuAdapterDriverAddTag driver group tag now).2 =
      (neuGroupAddTag (groupOrNew driver group).2.group tag.parsed now).2 := by
    unfold neuAdapterDriverAddTag
    simp only
    split <;> rfl
  rw [same, ← taken, neuGroupAddTag]
  split
  · next there => exact iff_of_false (by simp [NEU_ERR_TAG_NAME_CONFLICT]) (not_not.2 there)
  · next free => exact iff_of_true rfl free

theorem tryAddTag_groups (driver : NeuAdapterDriver) (group : CStr) (tags : List NeuDatatag)
    (rv : Int) : (neuAdapterDriverTryAddTag driver group tags rv).1.groups = driver.groups := by
  unfold neuAdapterDriverTryAddTag
  split <;> rfl

theorem findGroup_congr {driver driver' : NeuAdapterDriver}
    (same : driver'.groups = driver.groups) (name : CStr) :
    findGroup driver' name = findGroup driver name := by
  rw [findGroup, findGroup, same]

theorem tagTable_congr {driver driver' : NeuAdapterDriver} (same : driver'.groups = driver.groups)
    (name : CStr) : tagTable driver' name = tagTable driver name := by
  rw [tagTable, tagTable, findGroup_congr same]

/-- The third pass ends behind the tags that it added; its error is the one it began with or that
of the tag it stopped at. -/
theorem addTagLoop_prefix (group : CStr) (now : Nat → Int) (error : Int) (tags : List NeuDatatag)
    (driver : NeuAdapterDriver) (i : Nat) : ∃ n ≤ tags.length,
      let looped := addTagLoop group now error i tags driver
      looped.2.index = i + n ∧
      tagTable looped.1 group = tagTable driver group ++ tagEntries (tags.take n) ∧
      (∀ other, other ≠ group → findGroup looped.1 other = findGroup driver other) ∧
      (looped.2.error = 0 ↔ n = tags.length ∧ error = 0) := by
  induction tags generalizing driver i with
  | nil => exact ⟨0, le_rfl, rfl, (List.append_nil _).symm, fun _ _ => rfl, by simp [addTagLoop]⟩
  | cons tag rest ih =>
    obtain ⟨table, others⟩ := addTag_table driver group tag (now i)
    simp only [addTagLoop]
    split
    · next success =>
      obtain ⟨n, within, index, further, beyond, done⟩ :=
        ih (neuAdapterDriverAddTag driver group tag (now i)).1 (i + 1)
      rw [if_pos success] at table
      refine ⟨n + 1, Nat.succ_le_succ within, by omega, ?_, fun other away => ?_, ?_⟩
      · rw [further, table, List.append_assoc]
        rfl
      · exact (beyond other away).trans (others other away)
      · rw [done, List.length_cons, Nat.add_right_cancel_iff]
    · next refused =>
      rw [if_neg refused, List.append_nil] at table
      have same := tryDelTag_groups (neuAdapterDriverAddTag driver group tag (now i)).1
        (rest.length + 1)
      refine ⟨0, Nat.zero_le _, rfl, ?_, fun other away => ?_, ?_⟩
      · exact (tagTable_congr same group).trans (table.trans (List.append_nil _).symm)
      · exact (findGroup_congr same other).trans (others other away)
      · exact ⟨fun none => absurd none refused, fun all => absurd all.1 (Nat.succ_ne_zero _).symm⟩

theorem addTagLoop_index (group : CStr) (now : Nat → Int) (error : Int) (tags : List NeuDatatag)
    (driver : NeuAdapterDriver) (i : Nat) : (addTagLoop group now error i tags driver).2.index =
      i + newNames ((tagTable driver group).map Prod.fst) (tags.map NeuDatatag.name) := by
  induction tags generalizing driver i with
  | nil => rfl
  | cons tag rest ih =>
    have fresh := addTag_fresh driver group tag (now i)
    have table := (addTag_table driver group tag (now i)).1
    rw [addTagLoop, List.map_cons, newNames]
    split
    · next success =>
      rw [if_pos success] at table
      have names : (tagTable driver group ++ tagEntries [tag]).map Prod.fst =
          (tagTable driver group).map Prod.fst ++ [tag.name] := List.map_append ..
      rw [ih, table, names, if_neg (fresh.1 success), Nat.add_right_comm, Nat.add_assoc]
    · next refused =>
      rw [if_pos (not_not.1 fun new => refused (fresh.2 new))]
      rfl

theorem validateTags_names (plugin : TagReturns) (tags : List NeuDatatag) :
    (validateTags plugin tags).1.map NeuDatatag.name =
      (tags.takeWhile fun tag => (neuAdapterDriverValidateTag plugin tag).1 = 0).map
        NeuDatatag.name := by
  induction tags with
  | nil => rfl
  | cons tag rest ih =>
    rw [validateTags, List.takeWhile_cons]
    split
    · next passes =>
      rw [if_pos (decide_eq_true passes), List.map_cons, List.map_cons, ih,
        (validateTag_success passes).1]
      rfl
    · next fails => rw [if_neg (by simpa using fails)]

theorem tryAddTag_refuses (driver : NeuAdapterDriver) (group : CStr) (tags : List NeuDatatag)
    (rv : Int) : (neuAdapterDriverTryAddTag driver group tags rv).2 ≠ 0 ↔
      driver.intfFuns.addTags = true ∧ rv ≠ 0 := by
  unfold neuAdapterDriverTryAddTag
  split
  · next asked => exact (and_iff_right asked).symm
  · next unasked => exact iff_of_false (by simp) fun both => unasked both.1

theorem reqAddTag_index (plugin : TagReturns) (driver : NeuAdapterDriver) (group : CStr)
    (tags : List NeuDatatag) (now : Nat → Int) :
    (neuReqAddTag plugin driver group tags now).2.index = addedCount plugin driver group tags := by
  have refuses := tryAddTag_refuses driver group (validateTags plugin tags).1 plugin.addTags
  unfold neuReqAddTag addedCount
  rw [← validateTags_names]
  simp only
  split
  · next none =>
    rw [none]
    exact (ite_self _).symm
  · split
    · next taken =>
      have same := tryAddTag_groups driver group (validateTags plugin tags).1 plugin.addTags
      rw [if_neg fun both => refuses.2 both taken, addTagLoop_index, tagTable_congr same, Nat.zero_add]
    · next refused => rw [if_pos (refuses.1 refused)]

theorem validateTags_prefix (plugin : TagReturns) (tags : List NeuDatatag) :
    ∃ n ≤ tags.length, (validateTags plugin tags).1 = (tags.take n).map NeuDatatag.parsed ∧
      ((validateTags plugin tags).2 = 0 ↔ n = tags.length) := by
  induction tags with
  | nil => exact ⟨0, le_rfl, rfl, by simp [validateTags]⟩
  | cons tag rest ih =>
    simp only [validateTags]
    split
    · next passes =>
      obtain ⟨n, within, kept, done⟩ := ih
      refine ⟨n + 1, Nat.succ_le_succ within, ?_, ?_⟩
      · rw [kept, (validateTag_success passes).1, List.take_succ_cons, List.map_cons]
      · rw [done, List.length_cons, Nat.add_right_cancel_iff]
    · next fails =>
      exact ⟨0, Nat.zero_le _, rfl, fun none => absurd none fails,
        fun all => absurd all (Nat.succ_ne_zero _).symm⟩

theorem tagEntries_parsed (tags : List NeuDatatag) :
    tagEntries (tags.map NeuDatatag.parsed) = tagEntries tags := by
  simp [tagEntries]

theorem reqAddTag_adds (plugin : TagReturns) (driver : NeuAdapterDriver) (group : CStr)
    (tags : List NeuDatatag) (now : Nat → Int) :
    AddsPrefix plugin driver group tags (neuReqAddTag plugin driver group tags now).1
      (neuReqAddTag plugin driver group tags now).2 := by
  obtain ⟨valid, within, kept, all⟩ := validateTags_prefix plugin tags
  have length : (validateTags plugin tags).1.length = valid := by
    rw [kept, List.length_map, List.length_take, Nat.min_eq_left within]
  have index := reqAddTag_index plugin driver group tags now
  revert index
  unfold neuReqAddTag
  simp only
  split
  · next none =>
    have zero : valid = 0 := by rw [← length, none, List.length_nil]
    refine fun index => ⟨index, Nat.zero_le _, (List.append_nil _).symm, fun _ _ => rfl, ?_⟩
    rw [all, zero]
  · next some =>
    have same := tryAddTag_groups driver group (validateTags plugin tags).1 plugin.addTags
    split
    · obtain ⟨n, fewer, index, table, others, done⟩ := addTagLoop_prefix group now
        (validateTags plugin tags).2 (validateTags plugin tags).1
        (neuAdapterDriverTryAddTag driver group (validateTags plugin tags).1 plugin.addTags).1 0
      intro count
      rw [Nat.zero_add] at index
      rw [length] at fewer done
      refine ⟨count, index ▸ fewer.trans within, ?_, fun other away => ?_, ?_⟩
      · rw [index, table, tagTable_congr same, kept, ← List.map_take, tagEntries_parsed,
          List.take_take, Nat.min_eq_left fewer]
      · exact (others other away).trans (findGroup_congr same other)
      · rw [done, all, index]
        omega
    · next refused =>
      refine fun index => ⟨index, Nat.zero_le _, ?_, fun other _ => findGroup_congr same other, ?_⟩
      · exact (tagTable_congr same group).trans (List.append_nil _).symm
      · refine ⟨fun success => absurd success refused, fun empty => ?_⟩
        have nothing : 0 = tags.length := empty
        exact absurd (List.eq_nil_of_length_eq_zero (by omega)) some

end

theorem addTags_prefix (plugin : TagReturns) (driver : NeuAdapterDriver) (group : CStr)
    (tags : List NeuDatatag) (now : Nat → Int) :
    AddsPrefix plugin driver group tags (neuReqAddTag plugin driver group tags now).1
      (neuReqAddTag plugin driver group tags now).2 :=
  reqAddTag_adds plugin driver group tags now

end Cpm
