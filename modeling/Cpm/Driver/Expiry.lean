import Cpm.Driver.ReportRun

/-! When a read and a report declare a value expired. The limit is a product of 32 bits. -/
namespace Cpm

open Lib

/-- The limit without wrap-around, in milliseconds. -/
def NeuGroup.expiry (group : NeuGroup) : Nat :=
  group.interval.toNat * NEU_DRIVER_TAG_CACHE_EXPIRE_TIME.toNat

def NeuRespTagValueMeta.Expired (answered : NeuRespTagValueMeta) : Prop :=
  answered.value = errorValue 0 NEU_ERR_PLUGIN_TAG_VALUE_EXPIRED

theorem readTimeout_wraps (group : NeuGroup) :
    readTimeout group = (group.expiry % 2 ^ 32 : Nat) := by
  simp [readTimeout, NeuGroup.expiry, UInt32.toNat_mul]

section
variable {fl : FloatOps} {tag : NeuDatatag} {value : NeuDriverCacheValue}

/-- A sound value is answered with the expiry error exactly if it is expired. -/
theorem tagValue_expired (other : neuTagAttributeTest tag NEU_ATTRIBUTE_STATIC = false)
    (sound : value.value.type ≠ .error)
    (telling : tagValue fl tag value false ≠ errorValue 0 NEU_ERR_PLUGIN_TAG_VALUE_EXPIRED)
    (expired : Bool) :
    tagValue fl tag value expired = errorValue 0 NEU_ERR_PLUGIN_TAG_VALUE_EXPIRED ↔
      expired = true := by
  cases expired with
  | false => exact ⟨fun equal => absurd equal telling, fun impossible => by cases impossible⟩
  | true => simp [tagValue, sound, other]

end

/-- The product in 32 bits decides as the exact one does. -/
theorem wrapped_decides (limit : Nat) (age : Int) (positive : 0 < limit) :
    ((age > (limit % 2 ^ 32 : Nat) ↔ age > limit) ∧
      (age > (limit % 2 ^ 32 : Nat) ∧ (limit % 2 ^ 32 : Nat) > (0 : Int) ↔ age > limit)) ↔
    limit < 2 ^ 32 ∨ age ≤ (limit % 2 ^ 32 : Nat) ∨ age > limit ∧ limit % 2 ^ 32 ≠ 0 := by
  omega

/-- The read of the group and the report of its tick each have one entry about the tag, which is
declared expired exactly beyond the limit. -/
def ExpiryExact (fl : FloatOps) (driver : NeuAdapterDriver) (cmdDriver name : CStr) (g : GroupT)
    (tag : NeuDatatag) (age timestamp : Int) : Prop :=
  (∃ n answers answered,
    neuAdapterDriverReadGroup fl driver cmdDriver name timestamp =
      some (.group cmdDriver name n answers) ∧
    (answers.filter fun answered => answered.tag = tag.name) = [answered] ∧
    (answered.Expired ↔ age > g.group.expiry)) ∧
  ∃ cache' datas reported,
    readReportGroup fl timestamp (readTimeout g.group) name driver.cache
      (neuGroupGetReadTag g.group) = some (cache', datas) ∧
    (datas.filter fun data => data.tag = tag.name) = [reported] ∧
    (reported.Expired ↔ age > g.group.expiry)

theorem expiry_exact (fl : FloatOps) {driver : NeuAdapterDriver} (orderly : Orderly driver)
    (running : driver.adapter.state = .running) {name : CStr} {g : GroupT}
    (found : findGroup driver name = some g) (accepted : NEU_GROUP_INTERVAL_LIMIT ≤ g.group.interval)
    {tag : NeuDatatag} (member : tag ∈ neuGroupGetReadTag g.group)
    (other : neuTagAttributeTest tag NEU_ATTRIBUTE_STATIC = false) {e : Entry}
    (cached : mapOf driver.cache (name, tag.name) = some e) (sound : e.type ≠ .error)
    (telling : tagValue fl tag e.copied false ≠ errorValue 0 NEU_ERR_PLUGIN_TAG_VALUE_EXPIRED)
    (marked : subscribed tag = true → e.changed = true) (cmdDriver : CStr) (timestamp : Int) :
    ExpiryExact fl driver cmdDriver name g tag (timestamp - e.timestamp) timestamp ↔
      g.group.expiry < 2 ^ 32 ∨ timestamp - e.timestamp ≤ (g.group.expiry % 2 ^ 32 : Nat) ∨
        timestamp - e.timestamp > g.group.expiry ∧ g.group.expiry % 2 ^ 32 ≠ 0 := by
  have positive : 0 < g.group.expiry := by
    have least : 100 ≤ g.group.interval.toNat := accepted
    have factor : NEU_DRIVER_TAG_CACHE_EXPIRE_TIME.toNat = 60 := rfl
    rw [NeuGroup.expiry, factor]
    omega
  rw [← wrapped_decides g.group.expiry (timestamp - e.timestamp) positive]
  obtain ⟨named, short, distinct⟩ := orderly.readTags found
  have own : e.copied.value.type ≠ .error := sound
  refine and_congr ?_ ?_
  · obtain ⟨_, _, read, one⟩ := read_named fl orderly running found member cmdDriver timestamp
    rw [cached] at one
    have decides : (answer fl timestamp (readTimeout g.group) tag (some e)).Expired ↔
        timestamp - e.timestamp > (g.group.expiry % 2 ^ 32 : Nat) := by
      rw [NeuRespTagValueMeta.Expired, answer, tagValue_expired other own telling,
        readTimeout_wraps, decide_eq_true_eq]
    constructor
    · rintro ⟨n, answers, answered, ran, here, exact⟩
      cases read.symm.trans ran
      cases one.symm.trans here
      exact decides.symm.trans exact
    · intro agree
      exact ⟨_, _, _, read, one, decides.trans agree⟩
  · obtain ⟨cache', _, ran, one⟩ := report_named fl orderly.inv named short distinct member timestamp
      (readTimeout g.group)
    have told : reportAnswer fl timestamp (readTimeout g.group) tag (some e) =
        some ⟨tag.name, tagValue fl tag e.copied
          (timestamp - e.timestamp > readTimeout g.group && readTimeout g.group > 0),
          e.payload.data, e.metas⟩ := by
      cases is : subscribed tag with
      | false => simp [reportAnswer, is]
      | true => simp [reportAnswer, marked is]
    rw [cached, told, Option.toList_some] at one
    have decides : NeuRespTagValueMeta.Expired ⟨tag.name, tagValue fl tag e.copied
        (timestamp - e.timestamp > readTimeout g.group && readTimeout g.group > 0),
        e.payload.data, e.metas⟩ ↔ timestamp - e.timestamp > (g.group.expiry % 2 ^ 32 : Nat) ∧
          (g.group.expiry % 2 ^ 32 : Nat) > (0 : Int) := by
      rw [NeuRespTagValueMeta.Expired, tagValue_expired other own telling, readTimeout_wraps,
        Bool.and_eq_true, decide_eq_true_eq, decide_eq_true_eq]
    constructor
    · rintro ⟨after, datas, reported, ran', here, exact⟩
      cases ran.symm.trans ran'
      cases one.symm.trans here
      exact decides.symm.trans exact
    · intro agree
      exact ⟨cache', _, _, ran, one, decides.trans agree⟩

def tempRef : TagRef := ⟨groupA.val, .lit "temp", groupA_fits, by decide⟩

def timedGroup (interval : UInt32) : List DriverOp :=
  [.manage (.addGroup groupA interval), .manage (.addTags accepting groupA [readTemp] fun _ => 5),
    .manage (.readTick groupA.val),
    .manage (.update exactBand tempRef 1000 (.plain .int8 (.ofU32 7) int8_plain) ⟨[], noMetas_fit⟩ 0)]

theorem timedGroup_orderly (interval : UInt32) : ∃ driver,
    (timedGroup interval).foldlM (driverStep noFloats) newDriver = some driver ∧ Orderly driver := by
  refine reached_orderly noFloats newDriver.adapter newDriver.intfFuns (timedGroup interval)
    ⟨trivial, fun _ _ => ⟨trivial, fun _ _ => ⟨trivial, fun _ _ => ⟨?_, fun _ _ => trivial⟩⟩⟩⟩
  intro _ _ is
  cases is

theorem expiry_exact_second : ∃ driver g tag e,
    (timedGroup 1000).foldlM (driverStep noFloats) newDriver = some driver ∧
    findGroup driver groupA = some g ∧ (neuGroupGetReadTag g.group).head? = some tag ∧
    mapOf driver.cache (groupA.val, tag.name) = some e ∧
    (ExpiryExact noFloats driver CStr.empty groupA g tag (1100 - e.timestamp) 1100 ↔
      g.group.expiry < 2 ^ 32 ∨ 1100 - e.timestamp ≤ (g.group.expiry % 2 ^ 32 : Nat) ∨
        1100 - e.timestamp > g.group.expiry ∧ g.group.expiry % 2 ^ 32 ≠ 0) := by
  obtain ⟨driver, ran, orderly⟩ := timedGroup_orderly 1000
  have state : ((timedGroup 1000).foldlM (driverStep noFloats) newDriver).bind (fun d =>
      (findGroup d groupA).bind fun g => (neuGroupGetReadTag g.group).head?.bind fun tag =>
        (mapOf d.cache (groupA.val, tag.name)).map fun e =>
          (d.adapter.state, decide (NEU_GROUP_INTERVAL_LIMIT ≤ g.group.interval),
            neuTagAttributeTest tag NEU_ATTRIBUTE_STATIC, decide (e.type ≠ .error),
            decide (tagValue noFloats tag e.copied false ≠
              errorValue 0 NEU_ERR_PLUGIN_TAG_VALUE_EXPIRED), subscribed tag)) =
      some (.running, true, false, true, true, false) := by decide +kernel
  rw [ran, Option.bind_some] at state
  obtain ⟨g, found, state⟩ := Option.bind_eq_some_iff.1 state
  obtain ⟨tag, first, state⟩ := Option.bind_eq_some_iff.1 state
  obtain ⟨e, cached, state⟩ := Option.map_eq_some_iff.1 state
  simp only [Prod.mk.injEq] at state
  obtain ⟨running, accepted, other, sound, telling, plain⟩ := state
  exact ⟨driver, g, tag, e, ran, found, first, cached,
    expiry_exact noFloats orderly running found (of_decide_eq_true accepted)
      (List.mem_of_mem_head? first) other cached (of_decide_eq_true sound)
      (of_decide_eq_true telling) (fun is => absurd (plain.symm.trans is) (by decide)) CStr.empty
      1100⟩

/-- With an interval of 71582789 the limit is one of 44 ms: 100 ms are too old for the read and
for the report. -/
theorem expiry_wraps :
    ((timedGroup 71582789).foldlM (driverStep noFloats) newDriver).bind (fun driver =>
      (findGroup driver groupA).bind fun g =>
      (neuAdapterDriverReadGroup noFloats driver CStr.empty groupA 1100).bind fun read =>
      (readReportGroup noFloats 1100 (readTimeout g.group) groupA driver.cache
        (neuGroupGetReadTag g.group)).map fun report =>
          (read.answers.map NeuRespTagValueMeta.value, report.2.map NeuRespTagValueMeta.value,
            g.group.expiry)) =
      some ([errorValue 0 NEU_ERR_PLUGIN_TAG_VALUE_EXPIRED],
        [errorValue 0 NEU_ERR_PLUGIN_TAG_VALUE_EXPIRED], 4294967340) ∧
    ¬ (1100 - 1000 > 4294967340) := ⟨by decide +kernel, by decide⟩

end Cpm
