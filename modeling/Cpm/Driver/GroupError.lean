import Cpm.Driver.Expiry

/-! An error that a plugin brings for a whole group: what becomes of the entries of its tags, and of
no others. -/
namespace Cpm

open Lib Lib.Run

def failing (tag : NeuDatatag) : Bool :=
  (neuTagAttributeTest tag NEU_ATTRIBUTE_READ || neuTagAttributeTest tag NEU_ATTRIBUTE_SUBSCRIBE) &&
    !neuTagAttributeTest tag NEU_ATTRIBUTE_STATIC

def Entry.failed (timestamp : Int) (u : ValueU) (e : Entry) : Entry :=
  ⟨.error, Cpm.payload .error u [], e.precision, timestamp, noMetas, true⟩

theorem Entry.failed_failed (timestamp : Int) (u : ValueU) (e : Entry) :
    (e.failed timestamp u).failed timestamp u = e.failed timestamp u := rfl

theorem failing_read (group : NeuGroup) :
    ((neuGroupGetReadTag group).filter fun tag => !neuTagAttributeTest tag NEU_ATTRIBUTE_STATIC) =
      group.tags.values.filter failing := by
  rw [neuGroupGetReadTag, List.filter_filter]
  refine List.filter_congr fun tag _ => ?_
  unfold isReadable failing
  cases neuTagAttributeTest tag NEU_ATTRIBUTE_STATIC
  · simp
  · simp

section
variable (band : DeadBand) {cache : NeuDriverCache} {group : CStr} (timestamp : Int) (u : ValueU)
    (precision : UInt8)

theorem updateError_map {tag : NeuDatatag} (named : group.strlen < NEU_GROUP_NAME_LEN)
    (short : tag.name.strlen < NEU_TAG_NAME_LEN) (inv : CacheInv cache) :
    ∃ cache', neuDriverCacheUpdate band cache group tag.name timestamp ⟨.error, u, precision⟩ [] []
        0 = some cache' ∧ CacheInv cache' ∧
      mapOf cache' = onTags (Entry.failed timestamp u) group [tag] (mapOf cache) := by
  let ref : TagRef := ⟨group, tag.name, named, short⟩
  let v : CallerValue := ⟨⟨.error, u, precision⟩, [], fun is => (by cases is),
    fun is => (by cases is), fun is => (by cases is)⟩
  have safe : CacheSafe cache (.update ref timestamp v ⟨[], noMetas_fit⟩ false 0) :=
    fun _ _ pointer => (by cases pointer)
  obtain ⟨cache', seen, stepped, kept, _, mapped⟩ := update_done band inv safe
  obtain ⟨after, updated, same⟩ := Option.map_eq_some_iff.1 stepped
  cases same
  refine ⟨cache', updated, kept, ?_⟩
  have names : (group, tag.name) = ref.names := rfl
  rw [onTags_single, names]
  cases found : cache.table.find (keyOf ref.group ref.tag) with
  | none =>
    rw [found] at mapped
    rw [mapped, mapOf_ref found]
    exact (Function.update_eq_self_iff.2 (by rw [mapOf_ref found]; rfl)).symm
  | some elem =>
    rw [found] at mapped
    obtain ⟨changed, compared, mapped⟩ := mapped
    -- The comparison with an error always raises the flag.
    have raised : changed = true := by
      unfold compareChanged at compared
      split at compared
      · exact (Option.some.inj compared).symm
      · exact (Option.some.inj compared).symm
    have cleared : metasOf [] = noMetas := by
      funext i
      exact List.getElem?_nil
    rw [mapped, mapOf_ref found, raised, cleared]
    rfl

theorem updateErrors_map {tags : List NeuDatatag} (named : group.strlen < NEU_GROUP_NAME_LEN)
    (short : ∀ tag ∈ tags, tag.name.strlen < NEU_TAG_NAME_LEN) (inv : CacheInv cache) :
    ∃ cache', tags.foldlM (fun cache tag =>
        neuDriverCacheUpdate band cache group tag.name timestamp ⟨.error, u, precision⟩ [] [] 0)
        cache = some cache' ∧ CacheInv cache' ∧
      mapOf cache' = onTags (Entry.failed timestamp u) group tags (mapOf cache) := by
  induction tags generalizing cache with
  | nil => exact ⟨cache, rfl, inv, (onTags_nil _ _ _).symm⟩
  | cons tag rest ih =>
    obtain ⟨first, updated, kept, mapped⟩ := updateError_map band timestamp u precision named
      (short tag List.mem_cons_self) inv
    obtain ⟨cache', ran, ended, further⟩ :=
      ih (fun other inside => short other (List.mem_cons_of_mem _ inside)) kept
    refine ⟨cache', ?_, ended, ?_⟩
    · rw [List.foldlM_cons, updated]
      exact ran
    · rw [further, mapped, onTags_cons (Entry.failed_failed timestamp u)]

end

/-- The error stands in the entry of every tag it goes to, all other entries are as they were, and
a read of the running group answers with it. -/
structure FailsGroup (fl : FloatOps) (driver failed : NeuAdapterDriver) (name : CStr) (g : GroupT)
    (timestamp : Int) (u : ValueU) : Prop where
  rest : failed = { driver with cache := failed.cache }
  entries : ∀ tag ∈ g.group.tags.values, failing tag = true →
    ∃ e, mapOf failed.cache (name, tag.name) = some e ∧ e.type = .error ∧
      e.payload = payload .error u [] ∧ e.timestamp = timestamp
  static : ∀ tag ∈ g.group.tags.values, neuTagAttributeTest tag NEU_ATTRIBUTE_STATIC = true →
    mapOf failed.cache (name, tag.name) = mapOf driver.cache (name, tag.name)
  others : ∀ names, (∀ tag ∈ g.group.tags.values, failing tag = true → names ≠ (name, tag.name)) →
    mapOf failed.cache names = mapOf driver.cache names
  reads : driver.adapter.state = .running → ∀ cmdDriver now, ∃ n answers,
    neuAdapterDriverReadGroup fl failed cmdDriver name now = some (.group cmdDriver name n answers) ∧
      ∀ tag ∈ g.group.tags.values, failing tag = true → ∃ answered,
        (answers.filter fun answered => answered.tag = tag.name) = [answered] ∧
          answered.value.type = .error ∧ answered.value.value.signed 4 = u.signed 4

theorem failed_copied (timestamp : Int) (u : ValueU) (e : Entry) :
    (e.failed timestamp u).copied.value.value.signed 4 = u.signed 4 := by
  have front : (Block.ofList 136 (u.window 0 4).toList : ValueU) =
      Block.zero.overlay 0 (u.window 0 4) := (overlay_zero _).symm
  have back : (Block.zero.overlay 0 (u.window 0 4) : ValueU).window 0 4 = u.window 0 4 :=
    Block.window_overlay _ _ (by decide)
  simp only [Entry.copied, Entry.failed, Payload.union, payload, NeuType.width, ValueU.signed,
    reduceCtorEq, if_false, front, back]

theorem group_error_update (fl : FloatOps) {driver : NeuAdapterDriver} (orderly : Orderly driver)
    {name : CStr} {g : GroupT} (found : findGroup driver name = some g)
    (cached : ∀ tag ∈ neuGroupGetReadTag g.group, (mapOf driver.cache (name, tag.name)).isSome)
    (timestamp : Int) (u : ValueU) (precision : UInt8) :
    ∃ failed, updateWithMeta fl.band driver name none timestamp ⟨.error, u, precision⟩ [] [] 0 =
      some failed ∧ FailsGroup fl driver failed name g timestamp u := by
  obtain ⟨named, fits, _⟩ := orderly.readTags found
  have readable {tag : NeuDatatag} (inside : tag ∈ g.group.tags.values)
      (fails : failing tag = true) : tag ∈ neuGroupGetReadTag g.group := by
    refine List.mem_filter.2 ⟨inside, ?_⟩
    rw [isReadable, (Bool.and_eq_true_iff.1 fails).1, Bool.true_or]
  have short : ∀ tag ∈ g.group.tags.values.filter failing,
      tag.name.strlen < NEU_TAG_NAME_LEN := by
    intro tag inside
    obtain ⟨member, fails⟩ := List.mem_filter.1 inside
    exact fits tag (readable member fails)
  obtain ⟨cache', ran, kept, mapped⟩ :=
    updateErrors_map fl.band timestamp u precision named short orderly.inv
  have updated : updateWithMeta fl.band driver name none timestamp ⟨.error, u, precision⟩ [] [] 0 =
      some { driver with cache := cache' } := by
    simp [updateWithMeta, found, failing_read, ran]
  have entry {tag : NeuDatatag} (inside : tag ∈ g.group.tags.values)
      (fails : failing tag = true) :
      ∃ e, mapOf cache' (name, tag.name) = some (Entry.failed timestamp u e) := by
    obtain ⟨e, here⟩ := Option.isSome_iff_exists.1 (cached tag (readable inside fails))
    refine ⟨e, ?_⟩
    rw [mapped, onTags, if_pos ⟨rfl, tag, List.mem_filter.2 ⟨inside, fails⟩, rfl⟩, here,
      Option.map_some]
  have others : ∀ names, (∀ tag ∈ g.group.tags.values, failing tag = true →
      names ≠ (name, tag.name)) → mapOf cache' names = mapOf driver.cache names := by
    intro names apart
    rw [mapped, onTags, if_neg]
    rintro ⟨here, tag, inside, same⟩
    obtain ⟨member, fails⟩ := List.mem_filter.1 inside
    exact apart tag member fails (Prod.ext here same.symm)
  refine ⟨_, updated, rfl, fun tag inside fails => ?_, fun tag inside static => ?_, others,
    fun running cmdDriver now => ?_⟩
  · obtain ⟨e, here⟩ := entry inside fails
    exact ⟨_, here, rfl, rfl, rfl⟩
  · refine others _ fun other member fails same => ?_
    have equal := keyed_apart (orderly.keyed name g found) inside member (congrArg Prod.snd same)
    rw [← equal] at fails
    simp [failing, static] at fails
  · let failed : NeuAdapterDriver := { driver with cache := cache' }
    have kept' : Orderly failed := orderly.recached kept
    have runs : failed.adapter.state = .running := running
    have has : findGroup failed name = some g := found
    have read := readGroup_map fl kept'.toFitting runs has cmdDriver now
    refine ⟨_, _, read, fun tag inside fails => ?_⟩
    obtain ⟨_, _, read', one⟩ := read_named fl kept' runs has (readable inside fails) cmdDriver now
    cases read.symm.trans read'
    obtain ⟨e, here⟩ : ∃ e, mapOf failed.cache (name, tag.name) =
        some (Entry.failed timestamp u e) := entry inside fails
    refine ⟨_, one, ?_⟩
    have told (expired : Bool) : tagValue fl tag (Entry.failed timestamp u e).copied expired =
        (Entry.failed timestamp u e).copied.value := if_pos rfl
    simp only [here, answer, told]
    exact ⟨rfl, failed_copied timestamp u e⟩

theorem group_error_update_timed : ∃ driver g failed,
    (timedGroup 1000).foldlM (driverStep noFloats) newDriver = some driver ∧
    findGroup driver groupA = some g ∧
    updateWithMeta noFloats.band driver groupA none 1200 ⟨.error, .ofU32 3006, 0⟩ [] [] 0 =
        some failed ∧
    FailsGroup noFloats driver failed groupA g 1200 (.ofU32 3006) := by
  obtain ⟨driver, ran, orderly⟩ := timedGroup_orderly 1000
  have state : ((timedGroup 1000).foldlM (driverStep noFloats) newDriver).bind (fun d =>
      (findGroup d groupA).map fun g => (neuGroupGetReadTag g.group).all fun tag =>
        (mapOf d.cache (groupA.val, tag.name)).isSome) = some true := by decide +kernel
  rw [ran, Option.bind_some] at state
  obtain ⟨g, found, cached⟩ := Option.map_eq_some_iff.1 state
  obtain ⟨failed, updated, fails⟩ := group_error_update noFloats orderly found
    (List.all_eq_true.1 cached) 1200 (.ofU32 3006) 0
  exact ⟨driver, g, failed, ran, found, updated, fails⟩

end Cpm
