import Cpm.Driver.StaticWrite

/-! The other tags of a group in which a static tag is written. The write takes a reading of the
clock for the whole group, and the next tick enters all of its tags anew. -/
namespace Cpm

open Lib

/-- After the write and the next tick of its group, a read shows every other tag as before. -/
def LeavesOthers (fl : FloatOps) (driver : NeuAdapterDriver) (req : Nat) (group cmdTag : CStr)
    (value : NeuDvalue) (timestamp now : Int) : Prop :=
  ∃ written ticked,
    neuAdapterDriverWriteTag fl driver req group cmdTag value timestamp now = some written ∧
    readCallback written group = some ticked ∧
    ∀ cmdDriver time, ∃ before after,
      neuAdapterDriverReadGroup fl driver cmdDriver group time = some before ∧
      neuAdapterDriverReadGroup fl ticked cmdDriver group time = some after ∧
      after.others cmdTag = before.others cmdTag

def Unfed (e : Option Entry) : Prop :=
  ∀ entry, e = some entry → entry.type = .error ∧
    entry.payload.union .error = .ofU32 (NEU_ERR_PLUGIN_TAG_NOT_READY % 2 ^ 32).toNat

/-- What the cache holds of a static tag shows the value that the tag has. -/
def ShowsStatic (fl : FloatOps) (tag : NeuDatatag) (e : Option Entry) : Prop :=
  (answer fl 0 0 tag e).shown = (answer fl 0 0 tag (some (.fresh (staticEntry tag) noMetas))).shown

def Steady (fl : FloatOps) (cache : NeuDriverCache) (group : CStr) (tag : NeuDatatag) : Prop :=
  if neuTagAttributeTest tag NEU_ATTRIBUTE_STATIC then
    ShowsStatic fl tag (mapOf cache (group, tag.name))
  else Unfed (mapOf cache (group, tag.name))

def otherTags (g : GroupT) (name : CStr) : List NeuDatatag :=
  (neuGroupGetReadTag g.group).filter fun tag => tag.name ≠ name

/-- The timestamp of the group after the request: a tag that cannot be written takes none. -/
def stampAfter (g : GroupT) (tag : NeuDatatag) (now : Int) : Int :=
  if neuTagAttributeTest tag NEU_ATTRIBUTE_WRITE then now else g.group.timestamp

section
variable {fl : FloatOps} {tag : NeuDatatag}

theorem union_ofU32 (n : Nat) : (payload .error (.ofU32 n) []).union .error = .ofU32 n := by
  have front : (ValueU.ofU32 n).window 0 4 = Block.leBlock 4 n :=
    Block.window_overlay Block.zero _ (by decide)
  simp only [payload, Payload.union, NeuType.width, front, reduceCtorEq, if_false]
  exact (overlay_zero _).symm

theorem mapOf_data {cache : NeuDriverCache} {names : CStr × CStr} {e : Entry}
    (here : mapOf cache names = some e) (plain : e.type ≠ .ptr) : e.payload.data = [] := by
  obtain ⟨elem, _, rfl⟩ := Option.map_eq_some_iff.1 here
  exact if_neg plain

/-- A tag that the plugin feeds shows the same after a rebuild exactly if it has no value. -/
theorem answer_other (other : neuTagAttributeTest tag NEU_ATTRIBUTE_STATIC = false) (timeout : Int)
    (metas : Metas) {cache : NeuDriverCache} (names : CStr × CStr) :
    (∀ time, (answer fl time timeout tag (some (.fresh (otherEntry tag) metas))).shown =
        (answer fl time timeout tag (mapOf cache names)).shown) ↔ Unfed (mapOf cache names) := by
  let notReady : ValueU := .ofU32 (NEU_ERR_PLUGIN_TAG_NOT_READY % 2 ^ 32).toNat
  have rebuilt (time : Int) :
      (answer fl time timeout tag (some (.fresh (otherEntry tag) metas))).shown =
        ⟨.error, notReady, []⟩ := by
    have union := union_ofU32 (NEU_ERR_PLUGIN_TAG_NOT_READY % 2 ^ 32).toNat
    simp only [answer, NeuRespTagValueMeta.shown, Entry.fresh, Entry.copied, otherEntry, errorValue,
      tagValue, if_true, union]
    rfl
  simp only [rebuilt]
  cases found : mapOf cache names with
  | none =>
    refine iff_of_true (fun _ => rfl) fun _ is => ?_
    cases is
  | some e =>
    constructor
    · intro same entry is
      cases is
      by_cases error : e.type = .error
      · have shows := same 0
        simp only [answer, NeuRespTagValueMeta.shown, Entry.copied, tagValue, error, if_true,
          Shown.mk.injEq] at shows
        exact ⟨error, shows.2.1.symm⟩
      · -- Once it has expired the answer is another error.
        have shows := same (e.timestamp + timeout + 1)
        have expired : e.timestamp + timeout + 1 - e.timestamp > timeout := by omega
        simp only [answer, NeuRespTagValueMeta.shown, Entry.copied, tagValue, if_neg error, other,
          Bool.not_false, Bool.true_and, expired, decide_true, if_true, Shown.mk.injEq] at shows
        exact absurd shows.2.1 (by decide)
    · intro unfed time
      obtain ⟨error, value⟩ := unfed e rfl
      have data := mapOf_data found (by rw [error]; decide)
      simp only [answer, NeuRespTagValueMeta.shown, Entry.copied, tagValue, error, if_true, value, data]
      rfl

end

theorem steady_iff (fl : FloatOps) (tag : NeuDatatag) (timeout : Int) (metas : Metas)
    (cache : NeuDriverCache) (group : CStr) :
    (∀ time, (answer fl time timeout tag (some (.fresh (rebuiltValue tag) metas))).shown =
        (answer fl time timeout tag (mapOf cache (group, tag.name))).shown) ↔
      Steady fl cache group tag := by
  unfold Steady rebuiltValue
  cases static : neuTagAttributeTest tag NEU_ATTRIBUTE_STATIC with
  | true =>
    simp only [if_true, ShowsStatic]
    constructor
    · intro same
      have now := same 0
      rw [answer_static static, answer_static static 0 timeout (mapOf _ _)] at now
      exact now.symm
    · intro shows time
      rw [answer_static static, answer_static static time timeout (mapOf _ _), shows]
      rfl
  | false =>
    simp only [Bool.false_eq_true, if_false]
    exact answer_other static timeout metas (group, tag.name)

/- Reading a group, the one tag left out. -/

section
variable {driver written : NeuAdapterDriver} {group cmdTag : CStr} {g g' : GroupT}

theorem read_others (fl : FloatOps) (cmdTag : CStr) (orderly : Orderly driver)
    (running : driver.adapter.state = .running) (found : findGroup driver group = some g)
    (cmdDriver : CStr) (time : Int) :
    ∃ resp, neuAdapterDriverReadGroup fl driver cmdDriver group time = some resp ∧
      resp.others cmdTag = (otherTags g cmdTag).map fun tag => (tag.name,
        (answer fl time (readTimeout g.group) tag (mapOf driver.cache (group, tag.name))).shown) := by
  refine ⟨_, readGroup_map fl orderly.toFitting running found cmdDriver time, ?_⟩
  rw [ReadGroupResp.others, List.filter_map, List.map_map, otherTags]
  simp only [Function.comp_def, answer_tag]

/-- A tick after a step that left the other tags alone: what it shows of them depends on the
timestamp. -/
theorem tick_frame (fl : FloatOps) (orderly : Orderly driver) (orderly' : Orderly written)
    (running : driver.adapter.state = .running) (adapter : written.adapter = driver.adapter)
    (found : findGroup driver group = some g) (found' : findGroup written group = some g')
    (interval : g'.group.interval = g.group.interval) (saved : g'.timestamp = g.timestamp)
    (tags : otherTags g' cmdTag = otherTags g cmdTag)
    (others : ∀ name, name ≠ cmdTag →
      mapOf written.cache (group, name) = mapOf driver.cache (group, name)) :
    (∃ ticked, readCallback written group = some ticked ∧
        ∀ cmdDriver time, ∃ before after,
          neuAdapterDriverReadGroup fl driver cmdDriver group time = some before ∧
          neuAdapterDriverReadGroup fl ticked cmdDriver group time = some after ∧
          after.others cmdTag = before.others cmdTag) ↔
      g'.group.timestamp = g.timestamp ∨
        ∀ tag ∈ otherTags g cmdTag, Steady fl driver.cache group tag := by
  have running' : written.adapter.state = .running := by rw [adapter, running]
  obtain ⟨ticked, ran, leaves⟩ := readTick_map group orderly' running'
  obtain ⟨h, now, same⟩ := leaves.groups group g' found'
  have going : ticked.adapter.state = .running := by rw [leaves.adapter, running']
  have timeout : readTimeout h.group = readTimeout g.group := by
    rw [same, readTimeout, interval, readTimeout]
  have listed : otherTags h cmdTag = otherTags g cmdTag := by
    rw [← tags, otherTags, same, otherTags]
  have shows (cmdDriver : CStr) (time : Int) : (∃ before after,
      neuAdapterDriverReadGroup fl driver cmdDriver group time = some before ∧
      neuAdapterDriverReadGroup fl ticked cmdDriver group time = some after ∧
      after.others cmdTag = before.others cmdTag) ↔ ∀ tag ∈ otherTags g cmdTag,
        (answer fl time (readTimeout g.group) tag (mapOf ticked.cache (group, tag.name))).shown =
        (answer fl time (readTimeout g.group) tag (mapOf driver.cache (group, tag.name))).shown := by
    obtain ⟨before, read, first⟩ := read_others fl cmdTag orderly running found cmdDriver time
    obtain ⟨after, read', second⟩ := read_others fl cmdTag leaves.orderly going now cmdDriver time
    rw [timeout, listed] at second
    constructor
    · rintro ⟨_, _, again, again', equal⟩ tag member
      cases read.symm.trans again
      cases read'.symm.trans again'
      rw [first, second] at equal
      exact congrArg Prod.snd (List.map_inj_left.1 equal tag member)
    · intro all
      refine ⟨before, after, read, read', ?_⟩
      rw [first, second]
      exact List.map_congr_left fun tag member => congrArg (Prod.mk tag.name) (all tag member)
  have unseen (still : g'.group.timestamp = g.timestamp) (tag : NeuDatatag)
      (member : tag ∈ otherTags g cmdTag) :
      mapOf ticked.cache (group, tag.name) = mapOf driver.cache (group, tag.name) := by
    rw [leaves.same g' found' (still.trans saved.symm)]
    exact others tag.name (by simpa using (List.mem_filter.1 member).2)
  have rebuilt (moved : g'.group.timestamp ≠ g.timestamp) (tag : NeuDatatag)
      (member : tag ∈ otherTags g cmdTag) : ∃ metas,
      mapOf ticked.cache (group, tag.name) = some (.fresh (rebuiltValue tag) metas) := by
    rw [← saved] at moved
    exact leaves.rebuilt g' found' moved tag (List.mem_of_mem_filter (tags ▸ member))
  by_cases still : g'.group.timestamp = g.timestamp
  · refine ⟨fun _ => .inl still, fun _ => ⟨ticked, ran, fun cmdDriver time => ?_⟩⟩
    exact (shows cmdDriver time).2 fun tag member => by rw [unseen still tag member]
  · constructor
    · rintro ⟨_, again, reads⟩
      cases ran.symm.trans again
      refine .inr fun tag member => ?_
      obtain ⟨metas, fresh⟩ := rebuilt still tag member
      refine (steady_iff fl tag (readTimeout g.group) metas driver.cache group).1 fun time => ?_
      rw [← fresh]
      exact (shows CStr.empty time).1 (reads CStr.empty time) tag member
    · rintro (same | steady)
      · exact absurd same still
      · refine ⟨ticked, ran, fun cmdDriver time => (shows cmdDriver time).2 fun tag member => ?_⟩
        obtain ⟨metas, fresh⟩ := rebuilt still tag member
        rw [fresh]
        exact (steady_iff fl tag (readTimeout g.group) metas driver.cache group).2
          (steady tag member) time

theorem withStatic_others {tag : NeuDatatag} (found : g.group.tags.find tag.name = some tag)
    (u : ValueU) (now : Int) :
    otherTags (g.withStatic tag u now) tag.name = otherTags g tag.name := by
  have dropped (given : NeuDatatag) (same : given.name = tag.name) :
      (decide (given.name ≠ tag.name) && isReadable given) = false := by simp [same]
  simp only [otherTags, neuGroupGetReadTag, List.filter_filter]
  exact Table.filter_insert found (dropped tag rfl) (dropped { tag with staticValue := some u } rfl)

end

theorem static_write_frame_iff (fl : FloatOps) {driver : NeuAdapterDriver} {group cmdTag : CStr}
    {g : GroupT} {tag : NeuDatatag} (orderly : Orderly driver)
    (running : driver.adapter.state = .running)
    (found : findGroup driver group = some g) (has : neuGroupFindTag g.group cmdTag = some tag)
    (static : neuTagAttributeTest tag NEU_ATTRIBUTE_STATIC = true) (req : Nat) (value : DecodedValue)
    (timestamp now : Int) :
    LeavesOthers fl driver req group cmdTag value.value timestamp now ↔
      (neuTagAttributeTest tag NEU_ATTRIBUTE_WRITE = true → Orderable tag) ∧
        (stampAfter g tag now = g.timestamp ∨
          ∀ other ∈ otherTags g cmdTag, Steady fl driver.cache group other) := by
  have keyed : Keyed g.group := orderly.keyed group g found
  obtain rfl : tag.name = cmdTag := keyed cmdTag tag has
  have ticks {written : NeuAdapterDriver} (wrote : neuAdapterDriverWriteTag fl driver req group
      tag.name value.value timestamp now = some written) :
      LeavesOthers fl driver req group tag.name value.value timestamp now ↔
        ∃ ticked, readCallback written group = some ticked ∧ ∀ cmdDriver time, ∃ before after,
          neuAdapterDriverReadGroup fl driver cmdDriver group time = some before ∧
          neuAdapterDriverReadGroup fl ticked cmdDriver group time = some after ∧
          after.others tag.name = before.others tag.name := by
    constructor
    · rintro ⟨_, ticked, again, rest⟩
      cases wrote.symm.trans again
      exact ⟨ticked, rest⟩
    · rintro ⟨ticked, rest⟩
      exact ⟨written, ticked, wrote, rest⟩
  unfold stampAfter
  cases writable : neuTagAttributeTest tag NEU_ATTRIBUTE_WRITE with
  | false =>
    let refused := respond driver req NEU_ERR_PLUGIN_TAG_NOT_ALLOW_WRITE
    have wrote : neuAdapterDriverWriteTag fl driver req group tag.name value.value timestamp now =
        some refused := by
      simp [neuAdapterDriverWriteTag, running, found, has, writable, refused]
    have orderly' : Orderly refused := ⟨orderly.toFitting, orderly.keyed⟩
    rw [ticks wrote, tick_frame fl orderly orderly' running rfl found found rfl rfl rfl fun _ _ => rfl]
    simp
  | true =>
    by_cases orderable : Orderable tag
    · obtain ⟨fixed, done⟩ := fixValue_total fl tag value.value.type
        (calTagDecimal fl tag (intToDouble fl tag value.value)) orderable
      obtain ⟨written, wrote, leaves⟩ :=
        writeTag_wrote orderly running found has static writable done req timestamp now
      have inside : tag ∈ g.group.tags.values := Table.mem_values.2 ⟨tag.name, has⟩
      have tags := withStatic_others (keyed_find keyed inside) fixed.value now
      have others (name : CStr) (away : name ≠ tag.name) :
          mapOf written.cache (group, name) = mapOf driver.cache (group, name) :=
        leaves.others _ fun same => away (congrArg Prod.snd same)
      rw [ticks wrote, tick_frame fl orderly leaves.orderly running leaves.adapter found leaves.stored
        rfl rfl tags others]
      simp only [orderable, imp_self, true_and, if_true]
      rfl
    · -- The assertion of `fix_value` fails.
      have stops : neuAdapterDriverWriteTag fl driver req group tag.name value.value timestamp now =
          none := by
        have nothing : fixedValue fl tag value.value = none := by
          cases done : fixedValue fl tag value.value with
          | none => rfl
          | some fixed => exact absurd ((fixValue_some_iff fl tag _ _).1 ⟨fixed, done⟩) orderable
        unfold fixedValue at nothing
        simp [neuAdapterDriverWriteTag, running, found, has, writable, nothing]
      refine iff_of_false ?_ fun both => orderable (both.1 rfl)
      rintro ⟨_, _, wrote, _⟩
      cases stops.symm.trans wrote

def staticTemp : DecodedTag :=
  ⟨{ writeTemp.tag with
      attributes := NEU_ATTRIBUTE_WRITE + NEU_ATTRIBUTE_STATIC
      staticValue := some (.ofU32 3) }, by simp [writeTemp]⟩

def pressureRef : TagRef := ⟨groupA.val, readPressure.tag.name, groupA_fits, by decide⟩

def fedGroup : List DriverOp :=
  [.manage (.addGroup groupA 1000),
    .manage (.addTags accepting groupA [staticTemp, readPressure] fun _ => 5),
    .manage (.readTick groupA.val),
    .manage (.update exactBand pressureRef 10 (.plain .int8 (.ofU32 21) int8_plain) ⟨[], noMetas_fit⟩ 0)]

theorem fedGroup_orderly : ∃ driver, fedGroup.foldlM (driverStep noFloats) newDriver = some driver ∧
    Orderly driver := by
  refine reached_orderly noFloats newDriver.adapter newDriver.intfFuns fedGroup
    ⟨trivial, fun _ _ => ⟨trivial, fun _ _ => ⟨trivial, fun _ _ => ⟨?_, fun _ _ => trivial⟩⟩⟩⟩
  intro _ _ is
  cases is

theorem static_write_frame_fed : ∃ driver g tag,
    fedGroup.foldlM (driverStep noFloats) newDriver = some driver ∧
    findGroup driver groupA = some g ∧ neuGroupFindTag g.group (.lit "temp") = some tag ∧
    (LeavesOthers noFloats driver 1 groupA (.lit "temp") int7.value 10 6 ↔
      (neuTagAttributeTest tag NEU_ATTRIBUTE_WRITE = true → Orderable tag) ∧
        (stampAfter g tag 6 = g.timestamp ∨
          ∀ other ∈ otherTags g (.lit "temp"), Steady noFloats driver.cache groupA other)) := by
  obtain ⟨driver, ran, orderly⟩ := fedGroup_orderly
  have state : (fedGroup.foldlM (driverStep noFloats) newDriver).bind (fun d =>
      (findGroup d groupA).bind fun g => (neuGroupFindTag g.group (.lit "temp")).map fun tag =>
        (d.adapter.state, neuTagAttributeTest tag NEU_ATTRIBUTE_STATIC)) =
      some (.running, true) := by decide +kernel
  rw [ran, Option.bind_some] at state
  obtain ⟨g, found, further⟩ := Option.bind_eq_some_iff.1 state
  obtain ⟨tag, has, both⟩ := Option.map_eq_some_iff.1 further
  obtain ⟨running, static⟩ := Prod.mk.inj both
  exact ⟨driver, g, tag, ran, found, has,
    static_write_frame_iff noFloats orderly running found has static 1 int7 10 6⟩

/-- The value of the other tag is lost. -/
theorem static_write_drops_other : ∃ driver,
    fedGroup.foldlM (driverStep noFloats) newDriver = some driver ∧
      ¬ LeavesOthers noFloats driver 1 groupA (.lit "temp") int7.value 10 6 := by
  obtain ⟨driver, ran, _⟩ := fedGroup_orderly
  refine ⟨driver, ran, ?_⟩
  rintro ⟨written, ticked, wrote, ticks, reads⟩
  obtain ⟨before, after, read, read', same⟩ := reads CStr.empty 10
  have types : (fedGroup.foldlM (driverStep noFloats) newDriver).bind (fun d =>
      (neuAdapterDriverReadGroup noFloats d CStr.empty groupA 10).bind fun before =>
      (neuAdapterDriverWriteTag noFloats d 1 groupA (.lit "temp") int7.value 10 6).bind fun w =>
      (readCallback w groupA).bind fun t =>
      (neuAdapterDriverReadGroup noFloats t CStr.empty groupA 10).map fun after =>
        ((before.others (.lit "temp")).map (·.2.type), (after.others (.lit "temp")).map (·.2.type))) =
      some ([.int8], [.error]) := by decide +kernel
  simp only [ran, read, wrote, ticks, read', Option.bind_some, Option.map_some, same,
    Option.some.injEq, Prod.mk.injEq] at types
  exact absurd (types.1.symm.trans types.2) (by decide)

end Cpm
