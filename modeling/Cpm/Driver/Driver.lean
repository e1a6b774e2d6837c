import Cpm.Adapter.Adapter
import Cpm.Base.Group
import Cpm.Driver.Cache

/-! The groups and tags of a driver node, from `driver.c` and the tag requests of `adapter.c`. A
result `none` comes from the cache. -/
namespace Cpm

open Lib

def NEU_ERR_GROUP_EXIST : Int := 2104
def NEU_ERR_GROUP_PARAMETER_INVALID : Int := 2105
def NEU_ERR_GROUP_NOT_EXIST : Int := 2106
def NEU_ERR_TAG_ATTRIBUTE_NOT_SUPPORT : Int := 2203
def NEU_ERR_TAG_NAME_TOO_LONG : Int := 2206
def NEU_ERR_TAG_ADDRESS_TOO_LONG : Int := 2207
def NEU_ERR_TAG_DESCRIPTION_TOO_LONG : Int := 2208
def NEU_ERR_TAG_PRECISION_INVALID : Int := 2209
def NEU_ERR_PLUGIN_TAG_NOT_READY : Int := 3011

def NEU_TAG_ADDRESS_LEN : Nat := 128
def NEU_TAG_DESCRIPTION_LEN : Nat := 128
def NEU_TAG_FLOAG_PRECISION_MAX : UInt8 := 17
def NEU_GROUP_INTERVAL_LIMIT : UInt32 := 100

/-- `neu_plugin_group_t` without what the plugin keeps in it. -/
structure NeuPluginGroup where
  groupName : CStr
  tags : List NeuDatatag

structure NeuPluginTagValue where
  tag : NeuDatatag
  value : ValueU

/-- A request is known by its number. -/
inductive ToBeWriteTag where
  | single (req : Nat) (tag : NeuDatatag) (value : ValueU)
  | batch (req : Nat) (tvs : List NeuPluginTagValue)

def ToBeWriteTag.req : ToBeWriteTag → Nat
  | .single req _ _ | .batch req _ => req

/-- `group_t`. The serial number tells it from groups of the same name before and after it. -/
structure GroupT where
  serial : Nat
  name : CStr
  timestamp : Int
  group : NeuGroup
  staticTags : List NeuDatatag
  wtTags : List ToBeWriteTag
  grp : NeuPluginGroup

/-- What the driver does to its plugin and its requesters, and what it queues. -/
inductive DriverEvent where
  | groupTimer (grp : NeuPluginGroup)
  | addTags (group : CStr) (tags : List NeuDatatag) (rv : Int)
  | delTags (n : Nat)
  | stored (group : Nat) (wtag : ToBeWriteTag)
  | written (group : Nat) (wtag : ToBeWriteTag)
  | response (req : Nat) (error : Int)

structure DriverIntfFuns where
  addTags : Bool
  delTags : Bool
  writeTags : Bool

structure NeuAdapterDriver where
  adapter : NeuAdapter
  intfFuns : DriverIntfFuns
  cache : NeuDriverCache
  tagCnt : UInt64
  groups : Table CStr GroupT
  serials : Nat
  events : List DriverEvent

def neuAdapterDriverCreate (adapter : NeuAdapter) (intfFuns : DriverIntfFuns) :
    NeuAdapterDriver :=
  ⟨adapter, intfFuns, neuDriverCacheNew, 0, .empty, 0, []⟩

namespace NeuAdapterDriver

def record (driver : NeuAdapterDriver) (events : List DriverEvent) : NeuAdapterDriver :=
  { driver with events := driver.events ++ events }

def setGroup (driver : NeuAdapterDriver) (name : CStr) (group : GroupT) : NeuAdapterDriver :=
  { driver with groups := driver.groups.insert name group }

end NeuAdapterDriver

def findGroup (driver : NeuAdapterDriver) (name : CStr) : Option GroupT := driver.groups.find name

theorem findGroup_setGroup (driver : NeuAdapterDriver) (group other : CStr) (g : GroupT) :
    findGroup (driver.setGroup group g) other =
      if other = group then some g else findGroup driver other :=
  Table.find_insert driver.groups group other g

/- Groups. -/

def newGroup (serial : Nat) (name : CStr) (interval : UInt32) : GroupT :=
  let group := neuGroupNew name interval
  let split := neuGroupSplitStaticTags group
  ⟨serial, name, 0, group, split.1, [], ⟨name, split.2⟩⟩

def neuAdapterDriverAddGroup (driver : NeuAdapterDriver) (name : CStr) (interval : UInt32) :
    NeuAdapterDriver × Int :=
  match findGroup driver name with
  | some _ => (driver, NEU_ERR_GROUP_EXIST)
  | none =>
    ({ driver.setGroup name (newGroup driver.serials name interval) with
        serials := driver.serials + 1 }, NEU_ERR_SUCCESS)

def GroupT.renamed (group : GroupT) (name : CStr) : GroupT :=
  { group with name, group := neuGroupSetName group.group name, grp.groupName := name }

def GroupT.setInterval (group : GroupT) (interval : UInt32) : GroupT :=
  { group with group := neuGroupSetInterval group.group interval }

/-- `copied` says whether the new name could be copied. -/
def neuAdapterDriverUpdateGroup (driver : NeuAdapterDriver) (name newName : CStr)
    (interval : UInt32) (copied : Bool) : NeuAdapterDriver × Int :=
  match findGroup driver name with
  | none => (driver, NEU_ERR_GROUP_NOT_EXIST)
  | some find =>
    if newName.strlen = 0 then (driver, NEU_ERR_EINTERNAL)
    else if name ≠ newName ∧ (findGroup driver newName).isSome then (driver, NEU_ERR_GROUP_EXIST)
    else
      let interval := if interval < NEU_GROUP_INTERVAL_LIMIT then find.group.interval else interval
      if name = newName then (driver.setGroup name (find.setInterval interval), NEU_ERR_SUCCESS)
      else if copied then
        let others := { driver with groups := driver.groups.erase name }
        (others.setGroup newName ((find.renamed newName).setInterval interval), NEU_ERR_SUCCESS)
      else (driver.setGroup name (find.setInterval interval), NEU_ERR_EINTERNAL)

def neuAdapterDriverTryAddTag (driver : NeuAdapterDriver) (group : CStr) (tags : List NeuDatatag)
    (rv : Int) : NeuAdapterDriver × Int :=
  if driver.intfFuns.addTags then (driver.record [.addTags group tags rv], rv) else (driver, 0)

def neuAdapterDriverTryDelTag (driver : NeuAdapterDriver) (nTag : Nat) : NeuAdapterDriver :=
  if driver.intfFuns.delTags then driver.record [.delTags nTag] else driver

def cacheDelTags (cache : NeuDriverCache) (group : CStr) (tags : List NeuDatatag) :
    Option NeuDriverCache :=
  tags.foldlM (fun cache tag => neuDriverCacheDel cache group tag.name) cache

/-- Requests that wait in the queue are dropped with the group. -/
def neuAdapterDriverDelGroup (driver : NeuAdapterDriver) (name : CStr) :
    Option (NeuAdapterDriver × Int) :=
  match findGroup driver name with
  | none => some (driver, NEU_ERR_GROUP_NOT_EXIST)
  | some find => do
    let driver := { driver with groups := driver.groups.erase name }
    let driver := neuAdapterDriverTryDelTag driver (neuGroupTagSize find.group)
    let cache ← cacheDelTags driver.cache name find.staticTags
    let cache ← cacheDelTags cache name find.grp.tags
    return ({ driver with cache }, NEU_ERR_SUCCESS)

/-- The queues are dropped here too. -/
def neuAdapterDriverUninit (driver : NeuAdapterDriver) : NeuAdapterDriver :=
  driver.groups.values.foldl (fun driver el =>
    neuAdapterDriverTryDelTag { driver with groups := driver.groups.erase el.name }
      (neuGroupTagSize el.group)) driver

/- Tags. -/

structure TagReturns where
  validateTag : NeuDatatag → Int
  addTags : Int

def neuAdapterDriverValidateTag (plugin : TagReturns) (tag : NeuDatatag) : Int × NeuDatatag :=
  if tag.name.strlen ≥ NEU_TAG_NAME_LEN then (NEU_ERR_TAG_NAME_TOO_LONG, tag)
  else if tag.address.strlen ≥ NEU_TAG_ADDRESS_LEN then (NEU_ERR_TAG_ADDRESS_TOO_LONG, tag)
  else if tag.description.strlen ≥ NEU_TAG_DESCRIPTION_LEN then
    (NEU_ERR_TAG_DESCRIPTION_TOO_LONG, tag)
  else if tag.precision > NEU_TAG_FLOAG_PRECISION_MAX then (NEU_ERR_TAG_PRECISION_INVALID, tag)
  else if neuTagAttributeTest tag NEU_ATTRIBUTE_SUBSCRIBE &&
      neuTagAttributeTest tag NEU_ATTRIBUTE_STATIC then (NEU_ERR_TAG_ATTRIBUTE_NOT_SUPPORT, tag)
  else if !neuTagAttributeTest tag NEU_ATTRIBUTE_STATIC && plugin.validateTag tag ≠ 0 then
    (plugin.validateTag tag, tag)
  else (NEU_ERR_SUCCESS, tag.parsed)

def groupOrNew (driver : NeuAdapterDriver) (group : CStr) : NeuAdapterDriver × GroupT :=
  match findGroup driver group with
  | some find => (driver, find)
  | none => ((neuAdapterDriverAddGroup driver group 3000).1, newGroup driver.serials group 3000)

def neuAdapterDriverAddTag (driver : NeuAdapterDriver) (group : CStr) (tag : NeuDatatag)
    (now : Int) : NeuAdapterDriver × Int :=
  let target := groupOrNew driver group
  let added := neuGroupAddTag target.2.group tag.parsed now
  let driver := target.1.setGroup group { target.2 with group := added.1 }
  if added.2 = NEU_ERR_SUCCESS then ({ driver with tagCnt := driver.tagCnt + 1 }, added.2)
  else (driver, added.2)

def neuAdapterDriverDelTag (driver : NeuAdapterDriver) (group tag : CStr) (now : Int) :
    NeuAdapterDriver × Int :=
  match findGroup driver group with
  | none => (driver, NEU_ERR_GROUP_NOT_EXIST)
  | some find =>
    let deleted := neuGroupDelTag find.group tag now
    let driver := driver.setGroup group { find with group := deleted.1 }
    if deleted.2 = NEU_ERR_SUCCESS then
      let driver := neuAdapterDriverTryDelTag driver 1
      ({ driver with tagCnt := driver.tagCnt - 1 }, deleted.2)
    else (driver, deleted.2)

/-- The bounds on address and description are one larger than on an added tag. -/
def neuAdapterDriverUpdateTag (plugin : TagReturns) (driver : NeuAdapterDriver) (group : CStr)
    (tag : NeuDatatag) (now : Int) : NeuAdapterDriver × Int :=
  if tag.name.strlen ≥ NEU_TAG_NAME_LEN then (driver, NEU_ERR_TAG_NAME_TOO_LONG)
  else if tag.address.strlen > NEU_TAG_ADDRESS_LEN then (driver, NEU_ERR_TAG_ADDRESS_TOO_LONG)
  else if tag.description.strlen > NEU_TAG_DESCRIPTION_LEN then
    (driver, NEU_ERR_TAG_DESCRIPTION_TOO_LONG)
  else if tag.precision > NEU_TAG_FLOAG_PRECISION_MAX then (driver, NEU_ERR_TAG_PRECISION_INVALID)
  else if !neuTagAttributeTest tag NEU_ATTRIBUTE_STATIC && plugin.validateTag tag ≠ 0 then
    (driver, plugin.validateTag tag)
  else match findGroup driver group with
  | none => (driver, NEU_ERR_GROUP_NOT_EXIST)
  | some find =>
    let updated := neuGroupUpdateTag find.group tag.parsed now
    (driver.setGroup group { find with group := updated.1 }, updated.2)

/- The requests of `adapter_loop`. The clock is read once for each tag. -/

structure NeuRespTag where
  index : Nat
  error : Int
  deriving DecidableEq, Repr

def neuReqAddGroup (driver : NeuAdapterDriver) (group : CStr) (interval : UInt32) :
    NeuAdapterDriver × Int :=
  if interval < NEU_GROUP_INTERVAL_LIMIT then (driver, NEU_ERR_GROUP_PARAMETER_INVALID)
  else neuAdapterDriverAddGroup driver group interval

/-- The tags in front of the first invalid one, and its error. -/
def validateTags (plugin : TagReturns) : List NeuDatatag → List NeuDatatag × Int
  | [] => ([], 0)
  | tag :: rest =>
    let valid := neuAdapterDriverValidateTag plugin tag
    if valid.1 = 0 then
      let further := validateTags plugin rest
      (valid.2 :: further.1, further.2)
    else ([], valid.1)

def addTagLoop (group : CStr) (now : Nat → Int) (error : Int) :
    Nat → List NeuDatatag → NeuAdapterDriver → NeuAdapterDriver × NeuRespTag
  | i, [], driver => (driver, ⟨i, error⟩)
  | i, tag :: rest, driver =>
    let added := neuAdapterDriverAddTag driver group tag (now i)
    if added.2 = 0 then addTagLoop group now error (i + 1) rest added.1
    else (neuAdapterDriverTryDelTag added.1 (rest.length + 1), ⟨i, added.2⟩)

def neuReqAddTag (plugin : TagReturns) (driver : NeuAdapterDriver) (group : CStr)
    (tags : List NeuDatatag) (now : Nat → Int) : NeuAdapterDriver × NeuRespTag :=
  let valid := validateTags plugin tags
  if valid.1 = [] then (driver, ⟨0, valid.2⟩)
  else
    let tried := neuAdapterDriverTryAddTag driver group valid.1 plugin.addTags
    if tried.2 = 0 then addTagLoop group now valid.2 0 valid.1 tried.1
    else (tried.1, ⟨0, tried.2⟩)

def updateTagLoop (plugin : TagReturns) (group : CStr) (now : Nat → Int) :
    Nat → List NeuDatatag → NeuAdapterDriver → NeuAdapterDriver × NeuRespTag
  | i, [], driver => (driver, ⟨i, 0⟩)
  | i, tag :: rest, driver =>
    let updated := neuAdapterDriverUpdateTag plugin driver group tag (now i)
    if updated.2 = 0 then updateTagLoop plugin group now (i + 1) rest updated.1
    else (updated.1, ⟨i, updated.2⟩)

def neuReqUpdateTag (plugin : TagReturns) (driver : NeuAdapterDriver) (group : CStr)
    (tags : List NeuDatatag) (now : Nat → Int) : NeuAdapterDriver × NeuRespTag :=
  updateTagLoop plugin group now 0 tags driver

/-- Every name is tried, whatever became of the ones before. -/
def neuReqDelTag (group : CStr) (now : Nat → Int) :
    Nat → List CStr → NeuAdapterDriver → NeuAdapterDriver
  | _, [], driver => driver
  | i, tag :: rest, driver =>
    neuReqDelTag group now (i + 1) rest (neuAdapterDriverDelTag driver group tag (now i)).1

/- The read tick. -/

def errorValue (precision : UInt8) (error : Int) : NeuDvalue :=
  ⟨.error, .ofU32 (error % 2 ^ 32).toNat, precision⟩

/-- What a static tag is entered with; a tag without its value is an error. -/
def staticEntry (tag : NeuDatatag) : NeuDvalue :=
  match neuTagGetStaticValue tag with
  | some value => ⟨tag.type, value, tag.precision⟩
  | none => errorValue tag.precision NEU_ERR_EINTERNAL

def otherEntry (tag : NeuDatatag) : NeuDvalue :=
  errorValue tag.precision NEU_ERR_PLUGIN_TAG_NOT_READY

def cacheAddTags (entry : NeuDatatag → NeuDvalue) (cache : NeuDriverCache) (group : CStr)
    (tags : List NeuDatatag) : Option NeuDriverCache :=
  tags.foldlM (fun cache tag => neuDriverCacheAdd cache group tag.name (entry tag) []) cache

/-- The old tags leave the cache and the new ones enter it. -/
def groupChange (cache : NeuDriverCache) (group : GroupT) (timestamp : Int)
    (staticTags otherTags : List NeuDatatag) : Option (NeuDriverCache × GroupT) := do
  let cache ← cacheDelTags cache group.name group.staticTags
  let cache ← cacheDelTags cache group.name group.grp.tags
  let cache ← cacheAddTags staticEntry cache group.name staticTags
  let cache ← cacheAddTags otherEntry cache group.name otherTags
  return (cache, { group with timestamp, staticTags, grp := ⟨group.name, otherTags⟩ })

def neuGroupChangeTest (cache : NeuDriverCache) (group : GroupT) :
    Option (NeuDriverCache × GroupT) :=
  if neuGroupIsChange group.group group.timestamp then
    let split := neuGroupSplitStaticTags group.group
    groupChange cache group group.group.timestamp split.1 split.2
  else some (cache, group)

def readCallback (driver : NeuAdapterDriver) (name : CStr) : Option NeuAdapterDriver :=
  match findGroup driver name with
  | none => some driver
  | some group =>
    if driver.adapter.state ≠ .running then some driver
    else do
      let changed ← neuGroupChangeTest driver.cache group
      return ({ driver with cache := changed.1 }.setGroup name changed.2).record
        [.groupTimer changed.2.grp]

/- The plugin's updates. -/

/-- An error without a tag goes to every tag of the group that is read and not static. Any other
value needs a tag. -/
def updateWithMeta (band : DeadBand) (driver : NeuAdapterDriver) (group : CStr)
    (tag : Option CStr) (timestamp : Int) (value : NeuDvalue) (data : List UInt8)
    (metas : List NeuTagMeta) (fresh : Nat) : Option NeuAdapterDriver :=
  match tag with
  | some tag => do
    let cache ← neuDriverCacheUpdate band driver.cache group tag timestamp value data metas fresh
    return { driver with cache }
  | none =>
    if value.type ≠ .error then none
    else match findGroup driver group with
    | none => some driver
    | some find => do
      let tags := (neuGroupGetReadTag find.group).filter fun tag =>
        !neuTagAttributeTest tag NEU_ATTRIBUTE_STATIC
      let cache ← tags.foldlM (fun cache tag =>
        neuDriverCacheUpdate band cache group tag.name timestamp value [] [] 0) driver.cache
      return { driver with cache }

end Cpm
