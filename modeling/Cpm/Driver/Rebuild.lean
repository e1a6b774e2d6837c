import Cpm.Driver.Orderly
import Cpm.Driver.ReadMap

/-! What the read tick of a group makes of the map: a group whose tags have changed has each of them
entered anew, and every other group keeps its entries. -/
namespace Cpm

open Lib

def Entry.fresh (value : NeuDvalue) (metas : Metas) : Entry :=
  ⟨value.type, Cpm.payload value.type value.value [], value.precision, 0, metas, false⟩

def rebuiltValue (tag : NeuDatatag) : NeuDvalue :=
  if neuTagAttributeTest tag NEU_ATTRIBUTE_STATIC then staticEntry tag else otherEntry tag

section
variable {cache cache' : NeuDriverCache} {group : CStr} {tags : List NeuDatatag}

theorem cacheDelTags_map (named : group.strlen < NEU_GROUP_NAME_LEN) (fits : ∀ tag ∈ tags, TagFits tag)
    (inv : CacheInv cache) (ran : cacheDelTags cache group tags = some cache')
    {names : CStr × CStr} (away : names.1 ≠ group) :
    mapOf cache' names = mapOf cache names := by
  induction tags generalizing cache with
  | nil =>
    cases ran
    rfl
  | cons tag rest ih =>
    obtain ⟨here, further⟩ := List.forall_mem_cons.1 fits
    let ref : TagRef := ⟨group, tag.name, named, here.name⟩
    obtain ⟨next, seen, stepped, kept, _, mapped⟩ := del_done exactBand ref inv
    obtain ⟨_, deleted, same⟩ := Option.map_eq_some_iff.1 stepped
    cases same
    rw [cacheDelTags, List.foldlM_cons] at ran
    obtain ⟨_, again, others⟩ := Option.bind_eq_some_iff.1 ran
    cases deleted.symm.trans again
    have apart : names ≠ ref.names := fun same => away (congrArg Prod.fst same)
    rw [ih further kept others, mapped, Function.update_of_ne apart]

/-- A loop of entries, for tags that are told apart by their names. -/
theorem cacheAddTags_map (entry : NeuDatatag → NeuDvalue) (named : group.strlen < NEU_GROUP_NAME_LEN)
    (fits : ∀ tag ∈ tags, TagFits tag) (plain : ∀ tag, TagFits tag → Cacheable (entry tag))
    (apart : ∀ tag ∈ tags, ∀ other ∈ tags, tag.name = other.name → tag = other)
    (inv : CacheInv cache) (ran : cacheAddTags entry cache group tags = some cache') :
    (∀ tag ∈ tags, ∃ metas, mapOf cache' (group, tag.name) = some (.fresh (entry tag) metas)) ∧
      ∀ names : CStr × CStr, (∀ tag ∈ tags, names ≠ (group, tag.name)) →
        mapOf cache' names = mapOf cache names := by
  induction tags generalizing cache with
  | nil =>
    cases ran
    exact ⟨List.forall_mem_nil _, fun _ _ => rfl⟩
  | cons tag rest ih =>
    obtain ⟨here, further⟩ := List.forall_mem_cons.1 fits
    let ref : TagRef := ⟨group, tag.name, named, here.name⟩
    have enters := plain tag here
    let v : CallerValue := ⟨entry tag, [], enters.2, fun is => absurd is enters.1,
      fun is => absurd is enters.1⟩
    have foreign : CacheSafe cache (.add ref v) := fun is => absurd is enters.1
    obtain ⟨next, seen, stepped, kept, _, mapped⟩ := add_done exactBand inv foreign
    obtain ⟨_, added, same⟩ := Option.map_eq_some_iff.1 stepped
    cases same
    rw [cacheAddTags, List.foldlM_cons] at ran
    obtain ⟨_, again, others⟩ := Option.bind_eq_some_iff.1 ran
    cases added.symm.trans again
    obtain ⟨each, frame⟩ := ih further (fun a inside b within => apart a (List.mem_cons_of_mem _ inside)
      b (List.mem_cons_of_mem _ within)) kept others
    refine ⟨List.forall_mem_cons.2 ⟨?_, each⟩, fun names away => ?_⟩
    · by_cases later : ∃ other ∈ rest, other.name = tag.name
      · obtain ⟨other, inside, name⟩ := later
        obtain rfl := apart other (List.mem_cons_of_mem _ inside) tag (List.mem_cons_self ..) name
        exact each _ inside
      · have free : ∀ other ∈ rest, (group, tag.name) ≠ (group, other.name) :=
          fun other inside same => later ⟨other, inside, (congrArg Prod.snd same).symm⟩
        have entered : mapOf next (group, tag.name) = _ :=
          mapped ▸ Function.update_self ref.names _ (mapOf cache)
        exact ⟨_, (frame _ free).trans entered⟩
    · obtain ⟨front, behind⟩ := List.forall_mem_cons.1 away
      have other : names ≠ ref.names := front
      rw [frame names behind, mapped, Function.update_of_ne other]

end

theorem groupChange_map {cache : NeuDriverCache} {g : GroupT} (timestamp : Int)
    (named : g.name.strlen < NEU_GROUP_NAME_LEN)
    (fits : ∀ tag ∈ g.group.tags.values ++ g.cachedTags, TagFits tag) (keyed : Keyed g.group)
    (inv : CacheInv cache) :
    let split := neuGroupSplitStaticTags g.group
    ∃ cache', groupChange cache g timestamp split.1 split.2 =
        some (cache', { g with timestamp, staticTags := split.1, grp := ⟨g.name, split.2⟩ }) ∧
      CacheInv cache' ∧
      (∀ tag ∈ neuGroupGetReadTag g.group, ∃ metas,
        mapOf cache' (g.name, tag.name) = some (.fresh (rebuiltValue tag) metas)) ∧
      ∀ names : CStr × CStr, names.1 ≠ g.name → mapOf cache' names = mapOf cache names := by
  intro split
  obtain ⟨values, arrays⟩ := List.forall_mem_append.1 fits
  obtain ⟨oldStatic, oldOther⟩ := List.forall_mem_append.1 arrays
  have static (tag : NeuDatatag) (member : tag ∈ split.1) : tag ∈ g.group.tags.values ∧
      neuTagAttributeTest tag NEU_ATTRIBUTE_STATIC = true := List.mem_filter.1 member
  have other (tag : NeuDatatag) (member : tag ∈ split.2) : tag ∈ g.group.tags.values ∧
      neuTagAttributeTest tag NEU_ATTRIBUTE_STATIC = false := by
    obtain ⟨inside, kind⟩ := List.mem_filter.1 member
    rw [Bool.and_eq_true, Bool.not_eq_true'] at kind
    exact ⟨inside, kind.1⟩
  obtain ⟨c₁, ran₁, inv₁, _⟩ := cacheDelTags_keys named oldStatic inv
  obtain ⟨c₂, ran₂, inv₂, _⟩ := cacheDelTags_keys named oldOther inv₁
  have fits₁ (tag : NeuDatatag) (member : tag ∈ split.1) := values tag (static tag member).1
  have fits₂ (tag : NeuDatatag) (member : tag ∈ split.2) := values tag (other tag member).1
  have plain (tag : NeuDatatag) (_ : TagFits tag) := otherEntry_plain tag
  obtain ⟨c₃, ran₃, inv₃, _⟩ :=
    cacheAddTags_keys staticEntry named fits₁ (fun _ => staticEntry_plain) inv₂
  obtain ⟨c₄, ran₄, inv₄, _⟩ := cacheAddTags_keys otherEntry named fits₂ plain inv₃
  obtain ⟨each₁, frame₁⟩ := cacheAddTags_map staticEntry named fits₁ (fun _ => staticEntry_plain)
    (fun a inside b within => keyed_apart keyed (static a inside).1 (static b within).1) inv₂ ran₃
  obtain ⟨each₂, frame₂⟩ := cacheAddTags_map otherEntry named fits₂ plain
    (fun a inside b within => keyed_apart keyed (other a inside).1 (other b within).1) inv₃ ran₄
  refine ⟨c₄, by simp [groupChange, ran₁, ran₂, ran₃, ran₄], inv₄, fun tag member => ?_,
    fun names away => ?_⟩
  · obtain inside | inside := List.mem_append.1 (mem_split.2 member)
    · have kind := (static tag inside).2
      have behind : ∀ b ∈ split.2, (g.name, tag.name) ≠ (g.name, b.name) := by
        intro b within same
        obtain rfl := keyed_apart keyed (static tag inside).1 (other b within).1
          (congrArg Prod.snd same)
        exact absurd kind (by simp [(other tag within).2])
      obtain ⟨metas, here⟩ := each₁ tag inside
      exact ⟨metas, by rw [frame₂ _ behind, here, rebuiltValue, if_pos kind]⟩
    · obtain ⟨metas, here⟩ := each₂ tag inside
      exact ⟨metas, by rw [here, rebuiltValue, (other tag inside).2, if_neg Bool.false_ne_true]⟩
  · have beyond (tags : List NeuDatatag) : ∀ tag ∈ tags, names ≠ (g.name, tag.name) :=
      fun _ _ same => away (congrArg Prod.fst same)
    rw [frame₂ _ (beyond split.2), frame₁ _ (beyond split.1),
      cacheDelTags_map named oldOther inv₁ ran₂ away, cacheDelTags_map named oldStatic inv ran₁ away]

/- The tick as a whole. -/

structure Ticked (driver ticked : NeuAdapterDriver) (name : CStr) : Prop where
  orderly : Orderly ticked
  adapter : ticked.adapter = driver.adapter
  groups : ∀ other g, findGroup driver other = some g →
    ∃ g', findGroup ticked other = some g' ∧ g'.group = g.group
  others : ∀ names : CStr × CStr, names.1 ≠ name →
    mapOf ticked.cache names = mapOf driver.cache names
  same : ∀ g, findGroup driver name = some g → g.group.timestamp = g.timestamp →
    ticked.cache = driver.cache
  rebuilt : ∀ g, findGroup driver name = some g → g.group.timestamp ≠ g.timestamp →
    ∀ tag ∈ neuGroupGetReadTag g.group, ∃ metas,
      mapOf ticked.cache (name, tag.name) = some (.fresh (rebuiltValue tag) metas)

theorem ticked_idle {driver : NeuAdapterDriver} {name : CStr} (orderly : Orderly driver)
    (absent : findGroup driver name = none) : Ticked driver driver name where
  orderly := orderly
  adapter := rfl
  groups _ g found := ⟨g, found, rfl⟩
  others _ _ := rfl
  same _ _ _ := rfl
  rebuilt g found := by cases absent.symm.trans found

theorem readTick_map {driver : NeuAdapterDriver} (name : CStr) (orderly : Orderly driver)
    (running : driver.adapter.state = .running) :
    ∃ ticked, readCallback driver name = some ticked ∧ Ticked driver ticked name := by
  unfold readCallback
  cases found : findGroup driver name with
  | none => exact ⟨driver, rfl, ticked_idle orderly found⟩
  | some g =>
    obtain ⟨rfl, short⟩ := orderly.named name g found
    have fits := orderly.fits g.name g found
    obtain ⟨values, arrays⟩ := List.forall_mem_append.1 fits
    have keyed : Keyed g.group := orderly.keyed g.name g found
    have again (cache : NeuDriverCache) (g' : GroupT) (group : g'.group = g.group) :
        EachGroup KeyedGroup
          (({ driver with cache }.setGroup g.name g').record [.groupTimer g'.grp]) := by
      have new : KeyedGroup g.name g' := by rwa [KeyedGroup, group]
      exact each_insert orderly.keyed new
    have replaced (cache : NeuDriverCache) (g' : GroupT) (group : g'.group = g.group) (other : CStr)
        (h : GroupT) (before : findGroup driver other = some h) :
        ∃ h', findGroup (({ driver with cache }.setGroup g.name g').record [.groupTimer g'.grp])
          other = some h' ∧ h'.group = h.group := by
      have after := findGroup_setGroup { driver with cache } g.name other g'
      by_cases here : other = g.name
      · subst here
        cases found.symm.trans before
        exact ⟨g', after.trans (if_pos rfl), group⟩
      · exact ⟨h, (after.trans (if_neg here)).trans before, rfl⟩
    simp only [running, ne_eq, not_true_eq_false, if_false]
    by_cases same : g.group.timestamp = g.timestamp
    · have tested : neuGroupChangeTest driver.cache g = some (driver.cache, g) := by
        simp [neuGroupChangeTest, neuGroupIsChange, same]
      rw [tested]
      refine ⟨_, rfl, ⟨?_, again driver.cache g rfl⟩, rfl, replaced driver.cache g rfl,
        fun _ _ => rfl, fun _ _ _ => rfl, fun h before moved => ?_⟩
      · exact orderly.replace orderly.inv found rfl fits
      · cases found.symm.trans before
        exact absurd same moved
    · obtain ⟨cache', changed, inv, each, frame⟩ :=
        groupChange_map g.group.timestamp short fits keyed orderly.inv
      have tested : neuGroupChangeTest driver.cache g = some (cache', g.refreshed) := by
        rw [neuGroupChangeTest, if_pos (by simpa [neuGroupIsChange] using same)]
        exact changed
      rw [tested]
      refine ⟨_, rfl, ⟨?_, again cache' g.refreshed rfl⟩, rfl, replaced cache' g.refreshed rfl, frame,
        fun h before still => ?_, fun h before _ => ?_⟩
      · exact orderly.replace inv found rfl (List.forall_mem_append.2 ⟨values, split_fits values⟩)
      · cases found.symm.trans before
        exact absurd still same
      · cases found.symm.trans before
        exact each

end Cpm
