import Cpm.Driver.Fitting
import Cpm.Driver.Write
import Cpm.Lib.Decode
import Cpm.Lib.Mailbox
import Cpm.Lib.Run

/-! Every write request is handed to the plugin or answered: requests, write ticks, the life of the
adapter and of its groups, in any order. -/
namespace Cpm

open Lib Lib.Run Lib.Mailbox Relation

/-- A value of a request for one tag, which the decoders build in a cleared struct. -/
structure DecodedValue where
  value : NeuDvalue
  decoded : value.type ≠ .ptr ∧ value.value.bytesLength ≤ NEU_VALUE_SIZE

inductive DriverOp where
  | manage (op : GroupOp)
  | writeTag (req : Nat) (group : GroupName) (tag : CStr) (value : DecodedValue)
      (timestamp now : Int)
  | writeTags (req : Nat) (group : GroupName) (tags : List (CStr × NeuDvalue))
  | writeTick (name : CStr)
  | start (plugin : PluginReturns)
  | stop (plugin : PluginReturns)
  | uninit

def driverStep (fl : FloatOps) (driver : NeuAdapterDriver) : DriverOp → Option NeuAdapterDriver
  | .manage op => groupStep driver op
  | .writeTag req group tag value timestamp now =>
    neuAdapterDriverWriteTag fl driver req group tag value.value timestamp now
  | .writeTags req group tags => neuAdapterDriverWriteTags fl driver req group tags
  | .writeTick name => some (writeCallback driver name)
  | .start plugin => some { driver with adapter := (neuAdapterStart plugin driver.adapter).adapter }
  | .stop plugin => some { driver with adapter := (neuAdapterStop plugin driver.adapter).adapter }
  | .uninit => some (neuAdapterDriverUninit driver)

def DriverOp.requests : DriverOp → List Nat
  | .writeTag req _ _ _ _ _ | .writeTags req _ _ => [req]
  | .manage _ | .writeTick _ | .start _ | .stop _ | .uninit => []

/- The queues as boxes. A request that is answered instead of queued is refused. -/

def DriverEvent.mail : DriverEvent → Option (Mail Nat ToBeWriteTag Nat)
  | .stored group wtag => some (.put group wtag)
  | .written group wtag => some (.take group wtag)
  | .response req _ => some (.refuse req)
  | .groupTimer _ | .addTags _ _ _ | .delTags _ => none

def mailLog (driver : NeuAdapterDriver) : List (Mail Nat ToBeWriteTag Nat) :=
  driver.events.filterMap DriverEvent.mail

def GroupT.box (g : GroupT) : Nat × List ToBeWriteTag := (g.serial, g.wtTags)

def boxes (groups : Table CStr GroupT) : List (Nat × List ToBeWriteTag) :=
  groups.values.map GroupT.box

theorem boxes_found {groups : Table CStr GroupT} {name : CStr} {g : GroupT}
    (found : groups.find name = some g) :
    (boxes groups).Perm (g.box :: boxes (groups.erase name)) :=
  (Table.values_perm found).map GroupT.box

theorem boxes_insert (groups : Table CStr GroupT) (name : CStr) (g : GroupT) :
    (boxes (groups.insert name g)).Perm (g.box :: boxes (groups.erase name)) :=
  (Table.insert_values_perm groups name g).map GroupT.box

theorem boxes_absent {groups : Table CStr GroupT} {name : CStr} (absent : groups.find name = none) :
    boxes (groups.erase name) = boxes groups :=
  congrArg (List.map GroupT.box) (Table.erase_absent absent)

structure Mailed (driver : NeuAdapterDriver) (sent : List Nat) : Prop where
  fitting : Fitting driver.cache driver.groups
  accounted : Accounted ToBeWriteTag.req (boxes driver.groups) (mailLog driver) sent
  serials : ∀ g ∈ driver.groups.values, g.serial < driver.serials

theorem create_mailed (adapter : NeuAdapter) (intfFuns : DriverIntfFuns) :
    Mailed (neuAdapterDriverCreate adapter intfFuns) [] := by
  refine ⟨⟨cacheNew_inv, ?_, ?_⟩, accounted_start, ?_⟩
  · intro name g found
    cases found
  · intro name g found
    cases found
  · intro g member
    cases member

section
variable {driver driver' : NeuAdapterDriver} {sent : List Nat} {name : CStr} {g : GroupT}

theorem mailLog_quiet (driver : NeuAdapterDriver) {event : DriverEvent}
    (quiet : event.quiet = true) : mailLog (driver.record [event]) = mailLog driver := by
  have silent : event.mail = none := by
    cases event with
    | groupTimer grp => rfl
    | addTags group tags rv => rfl
    | delTags n => rfl
    | stored group wtag => cases quiet
    | written group wtag => cases quiet
    | response req error => cases quiet
  simp [mailLog, NeuAdapterDriver.record, silent]

theorem respond_mailed (mailed : Mailed driver sent) (req : Nat) (error : Int) :
    Mailed (respond driver req error) (sent ++ [req]) := by
  have log : mailLog (respond driver req error) = mailLog driver ++ [.refuse req] := by
    simp [mailLog, respond, NeuAdapterDriver.record, DriverEvent.mail]
  refine ⟨mailed.fitting, ?_, mailed.serials⟩
  rw [log]
  exact mailed.accounted.refused req

theorem replace_boxes {g' : GroupT} (found : driver.groups.find name = some g)
    (same : g'.box = g.box) : (boxes driver.groups).Perm (boxes (driver.groups.insert name g')) := by
  have now := boxes_insert driver.groups name g'
  rw [same] at now
  exact (boxes_found found).trans now.symm

theorem replace_serials {g' : GroupT} (serials : ∀ g ∈ driver.groups.values, g.serial < driver.serials)
    (found : driver.groups.find name = some g) (same : g'.serial = g.serial) :
    ∀ h ∈ (driver.groups.insert name g').values, h.serial < driver.serials := by
  intro h member
  obtain rfl | old := Table.mem_values_insert member
  · rw [same]
    exact serials g (Table.mem_values.2 ⟨name, found⟩)
  · exact serials h old

theorem change_mailed {group : CStr} {clock : Int → Prop} (mailed : Mailed driver sent)
    (change : Change group clock driver driver') : Mailed driver' sent := by
  have fitting := change_fitting mailed.fitting change
  obtain ⟨_, accounted, serials⟩ := mailed
  cases change with
  | create interval absent short =>
    refine ⟨fitting, ?_, ?_⟩
    · have fresh : driver.serials ∉ (boxes driver.groups).map Prod.fst := by
        intro member
        simp only [boxes, List.map_map, List.mem_map, Function.comp_apply] at member
        obtain ⟨h, inside, same⟩ := member
        exact absurd same (Nat.ne_of_lt (serials h inside))
      have now := boxes_insert driver.groups group (newGroup driver.serials group interval)
      rw [boxes_absent absent] at now
      exact (accounted.opened fresh).perm now.symm
    · intro h member
      obtain rfl | old := Table.mem_values_insert member
      · exact Nat.lt_succ_self _
      · exact Nat.lt_succ_of_lt (serials h old)
  | edit found edited =>
    exact ⟨fitting, accounted.perm (replace_boxes found rfl), replace_serials serials found rfl⟩
  | record quiet =>
    refine ⟨fitting, ?_, serials⟩
    rw [mailLog_quiet driver quiet]
    exact accounted
  | count tagCnt => exact ⟨fitting, accounted, serials⟩

theorem changes_mailed {group : CStr} {clock : Int → Prop} (mailed : Mailed driver sent)
    (changes : Changes group clock driver driver') : Mailed driver' sent := by
  induction changes with
  | refl => exact mailed
  | tail _ change ih => exact change_mailed ih change

theorem cache_mailed {cache : NeuDriverCache} (mailed : Mailed driver sent) (inv : CacheInv cache) :
    Mailed { driver with cache } sent :=
  ⟨⟨inv, mailed.fitting.named, mailed.fitting.fits⟩, mailed.accounted, mailed.serials⟩

theorem erase_mailed (mailed : Mailed driver sent) (name : CStr)
    (empty : ∀ g, findGroup driver name = some g → g.wtTags = []) :
    Mailed { driver with groups := driver.groups.erase name } sent := by
  obtain ⟨fitting, accounted, serials⟩ := mailed
  refine ⟨fitting.erase fitting.inv name, ?_, ?_⟩
  · cases found : findGroup driver name with
    | none =>
      have same := boxes_absent found
      exact same.symm ▸ accounted
    | some g =>
      have box : g.box = (g.serial, []) := congrArg (Prod.mk g.serial) (empty g found)
      have now := boxes_found found
      rw [box] at now
      exact (accounted.perm now).shut
  · intro h member
    exact serials h (Table.mem_values_erase member)

theorem rename_mailed {newName : GroupName} {interval : UInt32} (mailed : Mailed driver sent)
    (found : findGroup driver name = some g) (absent : findGroup driver newName = none)
    (different : name ≠ newName) :
    Mailed ({ driver with groups := driver.groups.erase name }.setGroup newName
      ((g.renamed newName).setInterval interval)) sent := by
  obtain ⟨fitting, accounted, serials⟩ := mailed
  have others := fitting.erase fitting.inv name
  have gone : (driver.groups.erase name).find newName = none := by
    rw [Table.find_erase, if_neg (Ne.symm different)]
    exact absent
  refine ⟨others.insert others.inv rfl newName.property (fitting.fits name g found), ?_, ?_⟩
  · have now := boxes_insert (driver.groups.erase name) newName
      ((g.renamed newName).setInterval interval)
    rw [boxes_absent gone] at now
    exact accounted.perm ((boxes_found found).trans now.symm)
  · intro h member
    obtain rfl | old := Table.mem_values_insert member
    · exact serials g (Table.mem_values.2 ⟨name, found⟩)
    · exact serials h (Table.mem_values_erase old)

theorem readTick_mailed (mailed : Mailed driver sent) (name : CStr) :
    ∃ ticked, readCallback driver name = some ticked ∧ Mailed ticked sent := by
  unfold readCallback
  split
  · exact ⟨driver, rfl, mailed⟩
  next g found =>
  split
  · exact ⟨driver, rfl, mailed⟩
  obtain ⟨fitting, accounted, serials⟩ := mailed
  have recorded (cache' : NeuDriverCache) (g' : GroupT)
      (fits : Fitting cache' (driver.groups.insert name g')) (box : g'.box = g.box) :
      Mailed (({ driver with cache := cache' }.setGroup name g').record [.groupTimer g'.grp])
        sent := by
    have before : Mailed ({ driver with cache := cache' }.setGroup name g') sent :=
      ⟨fits, accounted.perm (replace_boxes found box),
        replace_serials serials found (congrArg Prod.fst box)⟩
    have change : Change name (fun _ => True) ({ driver with cache := cache' }.setGroup name g')
        (({ driver with cache := cache' }.setGroup name g').record [.groupTimer g'.grp]) :=
      .record rfl
    exact change_mailed before change
  obtain ⟨tested, _⟩ | ⟨cache', tested, inv, _⟩ := changeTest_done fitting found
  · rw [tested]
    exact ⟨_, rfl, recorded driver.cache g
      (fitting.replace fitting.inv found rfl (fitting.fits name g found)) rfl⟩
  · rw [tested]
    obtain ⟨values, _⟩ := List.forall_mem_append.1 (fitting.fits name g found)
    exact ⟨_, rfl, recorded cache' g.refreshed
      (fitting.replace inv found rfl (List.forall_mem_append.2 ⟨values, split_fits values⟩)) rfl⟩

theorem tryDelTag_mailed (mailed : Mailed driver sent) (n : Nat) :
    Mailed (neuAdapterDriverTryDelTag driver n) sent := by
  have changes : Changes CStr.empty (fun _ => True) driver (neuAdapterDriverTryDelTag driver n) :=
    tryDelTag_changes CStr.empty n
  exact changes_mailed mailed changes

theorem delGroup_mailed (mailed : Mailed driver sent) (name : GroupName)
    (empty : ∀ g, findGroup driver name = some g → g.wtTags = []) :
    ∃ driver', groupStep driver (.delGroup name) = some driver' ∧ Mailed driver' sent := by
  cases found : findGroup driver name with
  | none => exact ⟨driver, by simp [groupStep, neuAdapterDriverDelGroup, found], mailed⟩
  | some g =>
    obtain ⟨cache', deleted, inv, _⟩ := delGroup_done mailed.fitting found
    have tried := tryDelTag_mailed (erase_mailed mailed name empty) (neuGroupTagSize g.group)
    exact ⟨_, by rw [groupStep, deleted]; rfl, cache_mailed tried inv⟩

theorem uninitLoop_mailed (els : List GroupT) (mailed : Mailed driver sent)
    (empty : ∀ g ∈ driver.groups.values, g.wtTags = []) :
    Mailed (els.foldl (fun driver el =>
      neuAdapterDriverTryDelTag { driver with groups := driver.groups.erase el.name }
        (neuGroupTagSize el.group)) driver) sent := by
  induction els generalizing driver with
  | nil => exact mailed
  | cons el rest ih =>
    have here (g : GroupT) (found : findGroup driver el.name = some g) : g.wtTags = [] :=
      empty g (Table.mem_values.2 ⟨el.name, found⟩)
    rw [List.foldl_cons]
    apply ih (tryDelTag_mailed (erase_mailed mailed el.name here) (neuGroupTagSize el.group))
    intro g member
    rw [tryDelTag_groups] at member
    exact empty g (Table.mem_values_erase member)

/- The write operations. -/

theorem store_mailed (mailed : Mailed driver sent) (found : findGroup driver name = some g)
    (wtag : ToBeWriteTag) : Mailed (storeWriteTag driver name g wtag) (sent ++ [wtag.req]) := by
  obtain ⟨fitting, accounted, serials⟩ := mailed
  refine ⟨fitting.replace fitting.inv found rfl (fitting.fits name g found), ?_,
    replace_serials serials found rfl⟩
  have log : mailLog (storeWriteTag driver name g wtag) =
      mailLog driver ++ [.put g.serial wtag] := by
    simp [mailLog, storeWriteTag, NeuAdapterDriver.record, NeuAdapterDriver.setGroup,
      DriverEvent.mail]
  rw [log]
  have before := accounted.perm (boxes_found found)
  have after := boxes_insert driver.groups name { g with wtTags := g.wtTags ++ [wtag] }
  exact (before.put wtag).perm after.symm

theorem writeTick_log (serial : Nat) (queue : List ToBeWriteTag) :
    (queue.map (DriverEvent.written serial)).filterMap DriverEvent.mail =
      queue.map (Mail.take serial) := by
  induction queue with
  | nil => rfl
  | cons wtag rest ih => exact congrArg (Mail.take serial wtag :: ·) ih

theorem writeTick_mailed (mailed : Mailed driver sent) (name : CStr) :
    Mailed (writeCallback driver name) sent := by
  unfold writeCallback
  split
  · exact mailed
  next g found =>
  split
  · exact mailed
  obtain ⟨fitting, accounted, serials⟩ := mailed
  refine ⟨fitting.replace fitting.inv found rfl (fitting.fits name g found), ?_,
    replace_serials serials found rfl⟩
  have log : mailLog ((driver.setGroup name { g with wtTags := [] }).record
      (g.wtTags.map (.written g.serial))) = mailLog driver ++ g.wtTags.map (.take g.serial) := by
    rw [mailLog, NeuAdapterDriver.record, List.filterMap_append, writeTick_log]
    rfl
  rw [log]
  have before := accounted.perm (boxes_found found)
  have after := boxes_insert driver.groups name { g with wtTags := [] }
  exact before.emptied.perm after.symm

theorem fixValue_some_iff (fl : FloatOps) (tag : NeuDatatag) (valueType : NeuType) (value : NeuDvalue) :
    (∃ fixed, fixValue fl tag valueType value = some fixed) ↔ Orderable tag := by
  refine ⟨fun ⟨fixed, done⟩ => ?_, fixValue_total fl tag valueType value⟩
  refine ⟨fun error => ?_, fun ptr => ?_, ?_⟩
  · simp [fixValue, error] at done
  · simp [fixValue, ptr] at done
  · cases type : tag.type with
    | unlisted other => simp [fixValue, type] at done
    | _ => rfl

theorem setStatic_fits {tag : NeuDatatag} {u : ValueU} (fits : TagFits tag)
    (orderable : tag.type ≠ .ptr)
    (short : u.bytesLength ≤ NEU_VALUE_SIZE) : TagFits (neuTagSetStaticValue tag u) := by
  unfold neuTagSetStaticValue
  split
  · refine ⟨fits.name, fun v stored => ?_⟩
    cases stored
    exact ⟨orderable, fun _ => short⟩
  · exact fits

theorem writeStatic_mailed (band : DeadBand) {tag : NeuDatatag} {value : NeuDvalue} {cmdTag : CStr}
    (mailed : Mailed driver sent) (found : findGroup driver name = some g)
    (tagged : neuGroupFindTag g.group cmdTag = some tag) (orderable : tag.type ≠ .ptr)
    (plain : value.type ≠ .ptr) (short : value.value.bytesLength ≤ NEU_VALUE_SIZE) (req : Nat)
    (timestamp now : Int) :
    ∃ driver', writeStatic band driver req name g tag value timestamp now = some driver' ∧
      Mailed driver' (sent ++ [req]) := by
  obtain ⟨named, fitsName⟩ := mailed.fitting.named name g found
  have inside : tag ∈ g.group.tags.values := Table.mem_values.2 ⟨cmdTag, tagged⟩
  have fits := mailed.fitting.fits name g found tag (List.mem_append_left _ inside)
  let v : CallerValue := ⟨value, [], fun _ => short, fun is => absurd is plain,
    fun is => absurd is plain⟩
  let ref : TagRef := ⟨g.name, tag.name, named.symm ▸ fitsName, fits.name⟩
  have safe : CacheSafe driver.cache (.update ref timestamp v ⟨[], Nat.zero_le _⟩ false 0) := by
    intro _ _ is
    exact absurd is plain
  obtain ⟨cache', updated, inv, _⟩ := update_keys band mailed.fitting.inv safe
  have static := setStatic_fits fits orderable short
  have change : Change name (fun _ => True) { driver with cache := cache' }
      ({ driver with cache := cache' }.setGroup name { g with
        group := (neuGroupUpdateTag g.group (neuTagSetStaticValue tag value.value) now).1 }) :=
    .edit found (updateTag_edited static trivial)
  have edited := change_mailed (cache_mailed mailed inv) change
  refine ⟨_, ?_, respond_mailed edited req NEU_ERR_SUCCESS⟩
  rw [writeStatic, updated]
  rfl

theorem writeTag_mailed {fl : FloatOps} {cmdTag : CStr} {value : DecodedValue}
    (mailed : Mailed driver sent) (req : Nat) (timestamp now : Int)
    (orderable : driver.adapter.state = .running → ∀ g tag, findGroup driver name = some g →
      neuGroupFindTag g.group cmdTag = some tag →
      neuTagAttributeTest tag NEU_ATTRIBUTE_WRITE = true → Orderable tag) :
    ∃ driver', neuAdapterDriverWriteTag fl driver req name cmdTag value.value timestamp now =
        some driver' ∧ Mailed driver' (sent ++ [req]) := by
  have answered (error : Int) : ∃ driver', some (respond driver req error) = some driver' ∧
      Mailed driver' (sent ++ [req]) := ⟨_, rfl, respond_mailed mailed req error⟩
  unfold neuAdapterDriverWriteTag
  split
  · exact answered _
  next running =>
  split
  · exact answered _
  next g found =>
  split
  · exact answered _
  next tag tagged =>
  split
  · next writable =>
    have type := orderable (not_not.1 running) g tag found tagged writable
    obtain ⟨fixed, done⟩ := fixValue_total fl tag value.value.type
      (calTagDecimal fl tag (intToDouble fl tag value.value)) type
    obtain ⟨ptr, plain, length⟩ := fixValue_plain done
    obtain ⟨decimalType, decimalLength⟩ :=
      calTagDecimal_plain fl tag (intToDouble fl tag value.value)
    obtain ⟨doubleType, doubleLength⟩ := intToDouble_plain fl tag value.value
    obtain ⟨notPtr, short⟩ := value.decoded
    rw [done]
    simp only [Option.bind_eq_bind, Option.bind_some]
    split
    · apply writeStatic_mailed fl.band mailed found tagged ptr
      · exact plain (by rw [decimalType, doubleType]; exact notPtr)
      · rw [length, decimalLength, doubleLength]
        exact short
    · exact ⟨_, rfl, store_mailed mailed found _⟩
  · exact answered _

theorem pluginTagValue_total {fl : FloatOps} {group : NeuGroup} {cmd : CStr × NeuDvalue}
    (orderable : ∀ tag, neuGroupFindTag group cmd.1 = some tag →
      neuTagAttributeTest tag NEU_ATTRIBUTE_WRITE = true →
      neuTagAttributeTest tag NEU_ATTRIBUTE_STATIC = false → Orderable tag) :
    ∃ tv, pluginTagValue fl group cmd = some tv := by
  unfold pluginTagValue
  split
  · exact ⟨none, rfl⟩
  next tag tagged =>
  split
  · next writable =>
    simp only [Bool.and_eq_true, Bool.not_eq_true'] at writable
    obtain ⟨fixed, done⟩ := fixValue_total fl tag cmd.2.type (calTagDecimal fl tag cmd.2)
      (orderable tag tagged writable.1 writable.2)
    exact ⟨_, by rw [done]; rfl⟩
  · exact ⟨none, rfl⟩

theorem writeTags_mailed {fl : FloatOps} {tags : List (CStr × NeuDvalue)}
    (mailed : Mailed driver sent) (req : Nat)
    (orderable : driver.adapter.state = .running → driver.intfFuns.writeTags = true →
      ∀ g, findGroup driver name = some g → ∀ cmd ∈ tags, ∀ tag,
      neuGroupFindTag g.group cmd.1 = some tag → neuTagAttributeTest tag NEU_ATTRIBUTE_WRITE = true →
      neuTagAttributeTest tag NEU_ATTRIBUTE_STATIC = false → Orderable tag) :
    ∃ driver', neuAdapterDriverWriteTags fl driver req name tags = some driver' ∧
      Mailed driver' (sent ++ [req]) := by
  have answered (error : Int) : ∃ driver', some (respond driver req error) = some driver' ∧
      Mailed driver' (sent ++ [req]) := ⟨_, rfl, respond_mailed mailed req error⟩
  unfold neuAdapterDriverWriteTags
  split
  · exact answered _
  next running =>
  split
  · exact answered _
  next supported =>
  split
  · exact answered _
  next g found =>
  have types := orderable (not_not.1 running) (by simpa using supported) g found
  have total : ∀ cmd ∈ tags, ∃ tv, pluginTagValue fl g.group cmd = some tv := by
    intro cmd member
    exact pluginTagValue_total (types cmd member)
  obtain ⟨tvs, ran⟩ := Decode.mapM_total total
  simp only [ran, Option.bind_eq_bind, Option.bind_some]
  split
  · exact answered _
  · exact ⟨_, rfl, store_mailed mailed found _⟩

end

/- Whole runs. -/

/-- Groups leave with an empty queue, no write reaches the assertion of `fix_value`, and updates
keep to the rules of the cache. -/
def WriteAllowed (driver : NeuAdapterDriver) : DriverOp → Prop
  | .manage (.delGroup name) => ∀ g, findGroup driver name = some g → g.wtTags = []
  | .manage (.update _ ref timestamp v metas fresh) =>
    CacheSafe driver.cache (.update ref timestamp v metas false fresh)
  | .writeTag _ group cmdTag _ _ _ => driver.adapter.state = .running → ∀ g tag,
      findGroup driver group = some g → neuGroupFindTag g.group cmdTag = some tag →
      neuTagAttributeTest tag NEU_ATTRIBUTE_WRITE = true → Orderable tag
  | .writeTags _ group tags => driver.adapter.state = .running → driver.intfFuns.writeTags = true →
      ∀ g, findGroup driver group = some g → ∀ cmd ∈ tags, ∀ tag,
      neuGroupFindTag g.group cmd.1 = some tag → neuTagAttributeTest tag NEU_ATTRIBUTE_WRITE = true →
      neuTagAttributeTest tag NEU_ATTRIBUTE_STATIC = false → Orderable tag
  | .uninit => ∀ g ∈ driver.groups.values, g.wtTags = []
  | .manage _ | .writeTick _ | .start _ | .stop _ => True

theorem groupStep_mailed {driver : NeuAdapterDriver} {sent : List Nat} {op : GroupOp}
    (mailed : Mailed driver sent) (allowed : WriteAllowed driver (.manage op)) :
    ∃ driver', groupStep driver op = some driver' ∧ Mailed driver' sent := by
  let clock : Int → Prop := fun _ => True
  cases op with
  | addGroup name interval =>
    refine ⟨_, rfl, ?_⟩
    unfold neuReqAddGroup
    split
    · exact mailed
    · have changes : Changes name clock driver (neuAdapterDriverAddGroup driver name interval).1 :=
        addGroup_changes driver name interval
      exact changes_mailed mailed changes
  | updateGroup name newName interval copied =>
    refine ⟨_, rfl, ?_⟩
    obtain changes | ⟨g, interval', found, ⟨different, _, absent, _⟩, same⟩ :=
      updateGroup_done clock driver name newName interval copied
    · exact changes_mailed mailed changes
    · rw [same]
      exact rename_mailed mailed found absent different
  | delGroup name => exact delGroup_mailed mailed name allowed
  | addTags plugin group tags now =>
    have changes : Changes group clock driver
        (neuReqAddTag plugin driver group (tags.map DecodedTag.tag) now).1 :=
      reqAddTag_changes fun _ _ => trivial
    exact ⟨_, rfl, changes_mailed mailed changes⟩
  | updateTags plugin group tags now =>
    have changes : Changes group clock driver
        (updateTagLoop plugin group now 0 (tags.map DecodedTag.tag) driver).1 :=
      updateTagLoop_changes fun _ _ _ => trivial
    exact ⟨_, rfl, changes_mailed mailed changes⟩
  | delTags group tags now =>
    have changes : Changes group clock driver (neuReqDelTag group now 0 tags driver) :=
      reqDelTag_changes fun _ _ _ => trivial
    exact ⟨_, rfl, changes_mailed mailed changes⟩
  | readTick name => exact readTick_mailed mailed name
  | update band ref timestamp v metas fresh =>
    obtain ⟨cache', updated, inv, _⟩ := update_op_done band mailed.fitting.inv allowed
    exact ⟨_, updated, cache_mailed mailed inv⟩
  | updateError band group timestamp value precision =>
    obtain ⟨cache', updated, inv, _⟩ :=
      updateError_op_done band group timestamp value precision mailed.fitting
    exact ⟨_, updated, cache_mailed mailed inv⟩

theorem driverStep_mailed (fl : FloatOps) (driver : NeuAdapterDriver) (op : DriverOp)
    (sent : List Nat) (mailed : Mailed driver sent) (allowed : WriteAllowed driver op) :
    ∃ driver', driverStep fl driver op = some driver' ∧ Mailed driver' (sent ++ op.requests) := by
  cases op with
  | manage op =>
    rw [DriverOp.requests, List.append_nil]
    exact groupStep_mailed mailed allowed
  | writeTag req group tag value timestamp now =>
    exact writeTag_mailed mailed req timestamp now allowed
  | writeTags req group tags => exact writeTags_mailed mailed req allowed
  | writeTick name =>
    rw [DriverOp.requests, List.append_nil]
    exact ⟨_, rfl, writeTick_mailed mailed name⟩
  | start plugin =>
    rw [DriverOp.requests, List.append_nil]
    exact ⟨_, rfl, ⟨mailed.fitting, mailed.accounted, mailed.serials⟩⟩
  | stop plugin =>
    rw [DriverOp.requests, List.append_nil]
    exact ⟨_, rfl, ⟨mailed.fitting, mailed.accounted, mailed.serials⟩⟩
  | uninit =>
    rw [DriverOp.requests, List.append_nil]
    exact ⟨_, rfl, uninitLoop_mailed driver.groups.values mailed allowed⟩

/-- A write tick of a running adapter hands over what the group accepted. -/
theorem writeTick_delivers {driver : NeuAdapterDriver} {sent : List Nat} {name : CStr} {g : GroupT}
    (mailed : Mailed driver sent) (running : driver.adapter.state = .running)
    (found : findGroup driver name = some g) :
    delivered g.serial (mailLog (writeCallback driver name)) =
      accepted g.serial (mailLog driver) := by
  have inside : g.box ∈ boxes driver.groups :=
    List.mem_map.2 ⟨g, Table.mem_values.2 ⟨name, found⟩, rfl⟩
  have log : mailLog (writeCallback driver name) =
      mailLog driver ++ g.wtTags.map (.take g.serial) := by
    simp only [writeCallback, found, running, ne_eq, not_true_eq_false, if_false]
    rw [mailLog, NeuAdapterDriver.record, List.filterMap_append, writeTick_log]
    rfl
  rw [log, delivered_append, delivered_takes, if_pos rfl]
  exact (mailed.accounted.held g.box inside).symm

theorem writes_accounted (fl : FloatOps) (adapter : NeuAdapter) (intfFuns : DriverIntfFuns)
    (ops : List DriverOp)
    (allowed : Along (driverStep fl) WriteAllowed (neuAdapterDriverCreate adapter intfFuns) ops) :
    ∃ driver, ops.foldlM (driverStep fl) (neuAdapterDriverCreate adapter intfFuns) = some driver ∧
      Accounted ToBeWriteTag.req (boxes driver.groups) (mailLog driver)
        (ops.flatMap DriverOp.requests) ∧
      (driver.adapter.state = .running → ∀ name g, findGroup driver name = some g →
        ∃ next, driverStep fl driver (.writeTick name) = some next ∧
          delivered g.serial (mailLog next) = accepted g.serial (mailLog driver)) := by
  have progress (driver : NeuAdapterDriver) (op : DriverOp) (past : List Nat)
      (mailed : Mailed driver past) (meets : WriteAllowed driver op) :
      ∃ driver', driverStep fl driver op = some driver' ∧ Mailed driver' (past ++ op.requests) :=
    driverStep_mailed fl driver op past mailed meets
  obtain ⟨driver, ran, mailed⟩ := ends_of_history progress (create_mailed adapter intfFuns) allowed
  refine ⟨driver, ran, mailed.accounted, fun running name g found => ?_⟩
  exact ⟨_, rfl, writeTick_delivers mailed running found⟩

def noFloats : FloatOps :=
  ⟨exactBand, fun _ => 0, fun _ => 0, fun _ => 0, fun _ => 0, fun _ => 0, fun _ _ => 0, fun _ _ => 0⟩

def writeTemp : DecodedTag :=
  ⟨⟨.lit "temp", .empty, NEU_ATTRIBUTE_WRITE, .int8, 0, 0, .empty, .zero, none⟩, by simp⟩

def int7 : DecodedValue := ⟨⟨.int64, .ofU32 7, 0⟩, by decide⟩

def oneWrite : List DriverOp :=
  [.manage (.addGroup groupA 1000), .manage (.addTags accepting groupA [writeTemp] fun _ => 5),
    .writeTag 1 groupA (.lit "temp") int7 0 0]

def dropGroup : DriverOp := .manage (.delGroup groupA)

/-- The tick comes before the group leaves. -/
theorem writes_accounted_tick : ∃ driver,
    (oneWrite ++ [.writeTick groupA.val, dropGroup]).foldlM (driverStep noFloats) newDriver =
      some driver ∧
    Accounted ToBeWriteTag.req (boxes driver.groups) (mailLog driver) [1] ∧
    (driver.adapter.state = .running → ∀ name g, findGroup driver name = some g →
      ∃ next, driverStep noFloats driver (.writeTick name) = some next ∧
        delivered g.serial (mailLog next) = accepted g.serial (mailLog driver)) := by
  refine writes_accounted noFloats newDriver.adapter newDriver.intfFuns
    (oneWrite ++ [.writeTick groupA.val, dropGroup]) ⟨trivial, fun d₁ added => ⟨trivial,
      fun d₂ tagged => ⟨fun _ g tag found here _ => ?_, fun d₃ queued => ⟨trivial,
      fun d₄ written => ⟨fun g found => ?_, fun _ _ => trivial⟩⟩⟩⟩⟩
  · have ran : (oneWrite.take 2).foldlM (driverStep noFloats) newDriver = some d₂ :=
      run_cons added (run_cons tagged rfl)
    have type : ((oneWrite.take 2).foldlM (driverStep noFloats) newDriver).bind (fun d =>
        (findGroup d groupA).bind fun g => (neuGroupFindTag g.group (.lit "temp")).map
          NeuDatatag.type) = some .int8 := by decide +kernel
    rw [ran, Option.bind_some, found, Option.bind_some, here, Option.map_some,
      Option.some.injEq] at type
    exact ⟨fun is => absurd (type.symm.trans is) (by decide),
      fun is => absurd (type.symm.trans is) (by decide), by rw [type]; rfl⟩
  · have ran : (oneWrite ++ [DriverOp.writeTick groupA.val]).foldlM (driverStep noFloats)
        newDriver = some d₄ := run_cons added (run_cons tagged (run_cons queued
      (run_cons written rfl)))
    have empty : ((oneWrite ++ [DriverOp.writeTick groupA.val]).foldlM (driverStep noFloats)
        newDriver).bind (fun d => (findGroup d groupA).map (·.wtTags.length)) = some 0 := by
      decide +kernel
    rw [ran, Option.bind_some, found, Option.map_some, Option.some.injEq] at empty
    exact List.eq_nil_of_length_eq_zero empty

theorem delGroup_drops_write : ¬ ∃ driver,
    (oneWrite ++ [dropGroup]).foldlM (driverStep noFloats) newDriver = some driver ∧
      Accounted ToBeWriteTag.req (boxes driver.groups) (mailLog driver) [1] := by
  rintro ⟨driver, ran, accounted⟩
  have lost : ((oneWrite ++ [dropGroup]).foldlM (driverStep noFloats) newDriver).map
      (fun driver => (closed ToBeWriteTag.req (mailLog driver),
        waiting ToBeWriteTag.req (boxes driver.groups))) = some ([], []) := by decide +kernel
  rw [ran, Option.map_some, Option.some.injEq, Prod.mk.injEq] at lost
  have once := accounted.once 1
  rw [lost.1, lost.2] at once
  cases once

end Cpm
