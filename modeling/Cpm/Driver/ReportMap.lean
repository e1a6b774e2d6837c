import Cpm.Driver.Report

/-! A report as a function of the map that the cache stands for. -/
namespace Cpm

open Lib

def subscribed (tag : NeuDatatag) : Bool := neuTagAttributeTest tag NEU_ATTRIBUTE_SUBSCRIBE

def reportAnswer (fl : FloatOps) (timestamp timeout : Int) (tag : NeuDatatag) :
    Option Entry → Option NeuRespTagValueMeta
  | none =>
    if subscribed tag then none
    else some ⟨tag.name, errorValue 0 NEU_ERR_PLUGIN_TAG_NOT_READY, [], noMetas⟩
  | some e =>
    if subscribed tag && !e.changed then none
    else
      let expired := timestamp - e.timestamp > timeout && timeout > 0
      some ⟨tag.name, tagValue fl tag e.copied expired, e.payload.data, e.metas⟩

/-- The subscribed tags lose their marks, those of errors apart. -/
def takenMap (group : CStr) (tags : List NeuDatatag) (m : TagMap) : TagMap :=
  onTags Entry.reported group (tags.filter subscribed) m

def subscribedNames (tags : List NeuDatatag) : List CStr :=
  (tags.filter subscribed).map NeuDatatag.name

theorem subscribed_distinct {tags : List NeuDatatag}
    (distinct : (tags.map NeuDatatag.name).Nodup) : (subscribedNames tags).Nodup :=
  distinct.sublist (List.filter_sublist.map _)

theorem Entry.reported_reported (e : Entry) : e.reported.reported = e.reported := by
  have twice (marked error : Bool) : (marked && error && error) = (marked && error) := by
    rw [Bool.and_assoc, Bool.and_self]
  exact congrArg (fun changed => { e with changed }) (twice e.changed (e.type = .error))

theorem Entry.reported_unmarked {e : Entry} (unmarked : e.changed = false) : e.reported = e := by
  rw [Entry.reported, unmarked, Bool.false_and, ← unmarked]

theorem takenMap_cons (group : CStr) (tag : NeuDatatag) (rest : List NeuDatatag) (m : TagMap) :
    takenMap group rest (takenMap group [tag] m) = takenMap group (tag :: rest) m := by
  unfold takenMap
  by_cases is : subscribed tag = true
  · simp only [List.filter_cons_of_pos is, List.filter_nil]
    exact onTags_cons Entry.reported_reported group tag _ m
  · simp only [List.filter_cons_of_neg is, List.filter_nil, onTags_nil]

section
variable (fl : FloatOps) (timestamp timeout : Int) {group : CStr} {cache : NeuDriverCache}

theorem metaGetChanged_map (ref : TagRef) (inv : CacheInv cache) :
    ∃ cache', neuDriverCacheMetaGetChanged cache ref.group ref.tag NEU_TAG_META_SIZE =
        some (cache', ((mapOf cache ref.names).filter Entry.changed).map fun e =>
          (e.copied, e.metas)) ∧
      CacheInv cache' ∧ mapOf cache' = Function.update (mapOf cache) ref.names
        ((mapOf cache ref.names).map Entry.reported) := by
  unfold neuDriverCacheMetaGetChanged
  rw [toKey_ref, mapOf_changed]
  cases marked : (cache.table.find (keyOf ref.group ref.tag)).filter Elem.changed with
  | none =>
    refine ⟨cache, by simp [marked], inv, ?_⟩
    have idle := mapOf_changed cache ref
    rw [marked, Option.map_none] at idle
    symm
    rw [Function.update_eq_self_iff]
    cases here : mapOf cache ref.names with
    | none => rfl
    | some e =>
      have unmarked : e.changed = false := by simpa [here, Option.filter_some] using idle
      rw [Option.map_some, Entry.reported_unmarked unmarked]
  | some elem =>
    have found := (Option.filter_eq_some_iff.1 marked).1
    have copied := copyValue_union (inv.stored _ elem found)
    obtain ⟨kept, mapped⟩ := report_entry inv found
    refine ⟨_, ?_, kept, ?_⟩
    · simp only [marked, Option.bind_eq_bind, Option.bind_some, le_refl, if_true, readElem, copied,
        Option.pure_def, Option.map_some]
      rfl
    · rw [mapped, mapOf_ref found]
      rfl

theorem readReportTag_map {tag : NeuDatatag} (named : group.strlen < NEU_GROUP_NAME_LEN)
    (short : tag.name.strlen < NEU_TAG_NAME_LEN) (inv : CacheInv cache) :
    ∃ cache', readReportTag fl timestamp timeout group cache tag =
        some (cache', reportAnswer fl timestamp timeout tag (mapOf cache (group, tag.name))) ∧
      CacheInv cache' ∧ mapOf cache' = takenMap group [tag] (mapOf cache) := by
  let ref : TagRef := ⟨group, tag.name, named, short⟩
  have names : (group, tag.name) = ref.names := rfl
  rw [names]
  unfold readReportTag
  by_cases is : subscribed tag = true
  · obtain ⟨cache', got, kept, mapped⟩ := metaGetChanged_map ref inv
    have tested : neuTagAttributeTest tag NEU_ATTRIBUTE_SUBSCRIBE = true := is
    refine ⟨cache', ?_, kept, ?_⟩
    · have taken : neuDriverCacheMetaGetChanged cache group tag.name NEU_TAG_META_SIZE = _ := got
      simp only [tested, if_true, taken]
      cases mapOf cache ref.names with
      | none => simp [reportAnswer, is]
      | some e =>
        cases marked : e.changed with
        | true => simp [reportAnswer, Option.filter_some, marked, Entry.copied, reportValue_eq]
        | false => simp [reportAnswer, Option.filter_some, marked, is]
    · rw [mapped, takenMap, List.filter_cons_of_pos is, List.filter_nil, onTags_single]
      rfl
  · have tested : neuTagAttributeTest tag NEU_ATTRIBUTE_SUBSCRIBE = false := by
      simpa [subscribed] using is
    have got : neuDriverCacheMetaGet cache group tag.name NEU_TAG_META_SIZE = _ :=
      metaGet_map ref inv
    refine ⟨cache, ?_, inv, ?_⟩
    · simp only [tested, Bool.false_eq_true, if_false, got]
      cases mapOf cache ref.names with
      | none => simp [reportAnswer, is]
      | some e => simp [reportAnswer, is, Entry.copied, reportValue_eq]
    · rw [takenMap, List.filter_cons_of_neg is, List.filter_nil, onTags_nil]

/-- A tag that loses its mark is told of differently only if it is subscribed. -/
theorem reportAnswer_taken {tag other : NeuDatatag} {m : TagMap}
    (apart : subscribed tag = true → subscribed other = true → tag.name ≠ other.name) :
    reportAnswer fl timestamp timeout other (takenMap group [tag] m (group, other.name)) =
      reportAnswer fl timestamp timeout other (m (group, other.name)) := by
  unfold takenMap onTags
  split
  · next taken =>
    obtain ⟨_, tag', inside, name⟩ := taken
    obtain ⟨here, is⟩ := List.mem_filter.1 inside
    rw [List.mem_singleton.1 here] at is name
    have plain : subscribed other = false := by
      by_contra subscribing
      exact apart is (by simpa using subscribing) name
    cases m (group, other.name) with
    | none => rfl
    | some e => simp [reportAnswer, plain, Entry.reported, Entry.copied]
  · rfl

/-- A report tells of its tags in order, and takes the marks it has told of. -/
theorem readReportGroup_map {tags : List NeuDatatag} (named : group.strlen < NEU_GROUP_NAME_LEN)
    (short : ∀ tag ∈ tags, tag.name.strlen < NEU_TAG_NAME_LEN)
    (distinct : (subscribedNames tags).Nodup) (inv : CacheInv cache) :
    ∃ cache', readReportGroup fl timestamp timeout group cache tags =
        some (cache', tags.filterMap fun tag =>
          reportAnswer fl timestamp timeout tag (mapOf cache (group, tag.name))) ∧
      CacheInv cache' ∧ mapOf cache' = takenMap group tags (mapOf cache) := by
  induction tags generalizing cache with
  | nil => exact ⟨cache, rfl, inv, by funext names; simp [takenMap]⟩
  | cons tag rest ih =>
    obtain ⟨first, ran, kept, mapped⟩ := readReportTag_map fl timestamp timeout named
      (short tag List.mem_cons_self) inv
    obtain ⟨fresh, others⟩ : (subscribed tag = true → tag.name ∉ subscribedNames rest) ∧
        (subscribedNames rest).Nodup := by
      by_cases is : subscribed tag = true
      · simpa [subscribedNames, is] using distinct
      · simpa [subscribedNames, is] using distinct
    obtain ⟨cache', further, ended, taken⟩ := ih
      (fun other inside => short other (List.mem_cons_of_mem _ inside)) others kept
    refine ⟨cache', ?_, ended, ?_⟩
    · -- The passes behind see the marks of their own tags as they were.
      have same : (rest.filterMap fun other =>
            reportAnswer fl timestamp timeout other (mapOf first (group, other.name))) =
          rest.filterMap fun other =>
            reportAnswer fl timestamp timeout other (mapOf cache (group, other.name)) := by
        refine List.filterMap_congr fun other inside => ?_
        rw [mapped]
        refine reportAnswer_taken fl timestamp timeout fun is is' name => fresh is ?_
        exact List.mem_map.2 ⟨other, List.mem_filter.2 ⟨inside, is'⟩, name.symm⟩
      rw [same] at further
      rw [readReportGroup, ran, List.filterMap_cons]
      simp only [Option.bind_eq_bind, Option.bind_some, further]
      cases reportAnswer fl timestamp timeout tag (mapOf cache (group, tag.name)) <;> rfl
    · rw [taken, mapped, takenMap_cons]

end

/-- The report timer of a group as it finds its driver. The cache comes from elsewhere. -/
structure ReportTimer where
  driver : NeuAdapterDriver
  name : GroupName
  group : GroupT
  found : findGroup driver name.val = some group
  short : ∀ tag ∈ neuGroupGetReadTag group.group, tag.name.strlen < NEU_TAG_NAME_LEN
  distinct : ((neuGroupGetReadTag group.group).map NeuDatatag.name).Nodup

/-- Every group of a driver in order has one. -/
def Orderly.timer {driver : NeuAdapterDriver} (orderly : Orderly driver) (name : GroupName)
    {group : GroupT} (found : findGroup driver name.val = some group) : ReportTimer where
  driver
  name
  group
  found
  short := (orderly.readTags found).2.1
  distinct := (orderly.readTags found).2.2

namespace ReportTimer

def tags (timer : ReportTimer) : List NeuDatatag := neuGroupGetReadTag timer.group.group

def running (timer : ReportTimer) : Bool := timer.driver.adapter.state = .running

def fire (fl : FloatOps) (timer : ReportTimer) (cache : NeuDriverCache) (timestamp : Int) :
    Option (NeuAdapterDriver × Option NeuReqrespTransData) :=
  reportCallback fl { timer.driver with cache } timer.name.val timestamp

def entries (fl : FloatOps) (timer : ReportTimer) (cache : NeuDriverCache) (timestamp : Int) :
    List NeuRespTagValueMeta :=
  timer.tags.filterMap fun tag => reportAnswer fl timestamp (readTimeout timer.group.group) tag
    (mapOf cache (timer.name.val, tag.name))

/-- The count has 16 bits, and with a count of 0 nothing is sent. -/
def message (timer : ReportTimer) (datas : List NeuRespTagValueMeta) : Option NeuReqrespTransData :=
  if datas.length % 2 ^ 16 > 0 then
    some ⟨timer.driver.adapter.name, timer.name.val, datas.length % 2 ^ 16, datas⟩
  else none

end ReportTimer

def told : Option NeuReqrespTransData → List NeuRespTagValueMeta
  | none => []
  | some data => data.tags.take data.nTag

theorem told_message (timer : ReportTimer) {datas : List NeuRespTagValueMeta}
    (few : datas.length < 2 ^ 16) : told (timer.message datas) = datas := by
  unfold ReportTimer.message
  rw [Nat.mod_eq_of_lt few]
  cases datas with
  | nil => rfl
  | cons data datas =>
    have positive : (data :: datas).length > 0 := Nat.succ_pos _
    rw [if_pos positive, told, List.take_length]

theorem told_among (timer : ReportTimer) (datas : List NeuRespTagValueMeta) :
    (told (timer.message datas)).Sublist datas := by
  unfold ReportTimer.message
  split
  · exact List.take_sublist _ _
  · exact List.nil_sublist _

theorem fire_running (fl : FloatOps) {timer : ReportTimer} (running : timer.running = true)
    {cache cache' : NeuDriverCache} {timestamp : Int} {datas : List NeuRespTagValueMeta}
    (ran : readReportGroup fl timestamp (readTimeout timer.group.group) timer.name.val cache
      timer.tags = some (cache', datas)) :
    timer.fire fl cache timestamp =
      some ({ timer.driver with cache := cache' }, timer.message datas) := by
  have found : findGroup { timer.driver with cache } timer.name.val = some timer.group := timer.found
  have state : timer.driver.adapter.state = .running := of_decide_eq_true running
  have read : readReportGroup fl timestamp (readTimeout timer.group.group) timer.name.val cache
    (neuGroupGetReadTag timer.group.group) = some (cache', datas) := ran
  unfold ReportTimer.fire reportCallback
  simp [found, state, read, ReportTimer.message]

/-- Any timer sends what there is to tell and takes the marks of its tags, if it is running. -/
theorem timer_fires (fl : FloatOps) (timer : ReportTimer) {cache : NeuDriverCache}
    (inv : CacheInv cache) (timestamp : Int) : ∃ cache',
      timer.fire fl cache timestamp = some ({ timer.driver with cache := cache' },
        if timer.running then timer.message (timer.entries fl cache timestamp) else none) ∧
      CacheInv cache' ∧ mapOf cache' =
        if timer.running then takenMap timer.name.val timer.tags (mapOf cache) else mapOf cache := by
  cases running : timer.running with
  | true =>
    obtain ⟨cache', ran, kept, taken⟩ := readReportGroup_map fl timestamp
      (readTimeout timer.group.group) timer.name.property timer.short
      (subscribed_distinct timer.distinct) inv
    exact ⟨cache', fire_running fl running ran, kept, taken⟩
  | false =>
    have found : findGroup { timer.driver with cache } timer.name.val = some timer.group :=
      timer.found
    have state : timer.driver.adapter.state ≠ .running := of_decide_eq_false running
    refine ⟨cache, ?_, inv, rfl⟩
    unfold ReportTimer.fire reportCallback
    simp [found, state]

end Cpm
