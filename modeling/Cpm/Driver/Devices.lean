import Cpm.Core.NodeTable
import Cpm.Lib.Decode
import Cpm.Lib.Run
import Cpm.Persist.ThingDb

/-! The devices of a driver: how they are loaded from the thing database, and the list of
`driver.c` that they are kept in. A result `none` is a crash. -/
namespace Cpm

open Lib Lib.Decode Lib.Run

def ESV_PK_NAME_LEN : ℕ := 128
def ESV_DN_NAME_LEN : ℕ := 128

structure DeviceRow extends ThingDeviceRow where
  deviceSecret : Option CStr
  deviceConfig : Option CStr
  deriving DecidableEq, Repr

structure DeviceDb where
  pluginNode : List PluginNodeRow
  thingDevice : List DeviceRow

def DeviceDb.thingDb (db : DeviceDb) : ThingDb :=
  ⟨db.pluginNode, db.thingDevice.map DeviceRow.toThingDeviceRow⟩

/-- `esv_persist_device_info_t`, and `esv_device_info_t` that a plugin is given. -/
structure EsvDeviceInfo where
  productKey : CStr
  deviceName : CStr
  deviceSecret : CStr
  deviceConfig : CStr
  deriving DecidableEq, Repr

/-- `tdevice_list_key_t`, as far as the terminators. -/
abbrev DeviceListKey := CStr × CStr

def EsvDeviceInfo.key (info : EsvDeviceInfo) : DeviceListKey := (info.productKey, info.deviceName)

/- The query. -/

def deviceRows (db : DeviceDb) (driverName : CStr) : List DeviceRow :=
  db.thingDevice.flatMap fun device =>
    (db.pluginNode.filter fun node =>
      sqlEq device.pluginNodeId (some node.nodeId) && sqlEq node.nodeName (some driverName)).map
        fun _ => device

def DeviceRow.info (row : DeviceRow) : Option EsvDeviceInfo := do
  return { productKey := ← row.productKey, deviceName := ← row.deviceName,
           deviceSecret := ← row.deviceSecret, deviceConfig := ← row.deviceConfig }

/-- Whether the query can be prepared and bound, and at which row a step of it fails. -/
structure DeviceQuery where
  runs : Bool
  failsAt : Option ℕ

/-- A step that fails ends the list, and that is no failure. -/
def collectDeviceInfo (rows : List DeviceRow) (failsAt : Option ℕ) : Option (List EsvDeviceInfo) :=
  (failsAt.elim rows rows.take).mapM DeviceRow.info

def esvPersisterLoadDevices (db : DeviceDb) (driverName : CStr) (query : DeviceQuery) :
    Option (Option (List EsvDeviceInfo) × Int) :=
  if query.runs then
    (collectDeviceInfo (deviceRows db driverName) query.failsAt).map fun infos => (some infos, 0)
  else some (none, NEU_ERR_EINTERNAL)

/- The list. -/

/-- `esv_device_list_t`. The elements are addresses, and nothing but their key is in them. -/
structure EsvDeviceList where
  list : UtHash DeviceListKey ℕ

def toDeviceListKey (pk dn : CStr) : Option DeviceListKey :=
  if pk.strlen < ESV_PK_NAME_LEN ∧ dn.strlen < ESV_DN_NAME_LEN then some (pk, dn) else none

def esvDeviceListNew : EsvDeviceList := ⟨none⟩

section
variable (hash : DeviceListKey → ℕ) (calloc : Calloc)

def esvDeviceListAdd (list : EsvDeviceList) (pk dn : CStr) : Option EsvDeviceList := do
  let key ← toDeviceListKey pk dn
  match hashFind hash list.list key with
  | some _ => return list
  | none => return ⟨hashAdd hash list.list key (calloc (hashIter list.list)).1⟩

def esvDeviceListDel (list : EsvDeviceList) (pk dn : CStr) : Option EsvDeviceList := do
  let key ← toDeviceListKey pk dn
  return ⟨(hashFindDelete hash list.list key).1⟩

def isDeviceInDeviceList (list : EsvDeviceList) (pk dn : CStr) : Option Bool := do
  let key ← toDeviceListKey pk dn
  return (hashFind hash list.list key).isSome

/-- The loop of `esv_adapter_driver_load_devices`. The array has `deviceCnt` entries. -/
def unpackDevices (deviceCnt : ℕ) :
    ℕ → List EsvDeviceInfo → EsvDeviceList → Option EsvDeviceList
  | _, [], list => some list
  | index, p :: rest, list =>
    if index < deviceCnt then do
      let list ← esvDeviceListAdd hash calloc list p.productKey p.deviceName
      unpackDevices deviceCnt (index + 1) rest list
    else none

/-- The list, and the array that `add_devices` is called with if it is. The length is a
`uint16_t`. -/
def esvAdapterDriverLoadDevices (type : NeuNodeType) (addDevices : Bool) (list : EsvDeviceList)
    (infos : List EsvDeviceInfo) : Option (EsvDeviceList × Option (List EsvDeviceInfo)) := do
  let list ← unpackDevices hash calloc (infos.length % 2 ^ 16) 0 infos list
  return (list, if type = .esvdevicedriver ∧ addDevices then some infos else none)

def adapterLoadDevice (type : NeuNodeType) (addDevices : Bool) (db : DeviceDb) (name : CStr)
    (query : DeviceQuery) (list : EsvDeviceList) :
    Option (EsvDeviceList × Option (List EsvDeviceInfo) × Int) := do
  match ← esvPersisterLoadDevices db name query with
  | (some infos, rv) => do
    let loaded ← esvAdapterDriverLoadDevices hash calloc type addDevices list infos
    return (loaded.1, loaded.2, rv)
  | (none, rv) => return (list, none, rv)

/- Runs. -/

inductive DeviceCall where
  | add (pk dn : CStr)
  | del (pk dn : CStr)
  | isIn (pk dn : CStr)
  | load (infos : List EsvDeviceInfo)

inductive DeviceSeen where
  | done
  | found (inside : Bool)
  | given (infos : Option (List EsvDeviceInfo))
  deriving DecidableEq

def deviceStep (type : NeuNodeType) (addDevices : Bool) (list : EsvDeviceList) :
    DeviceCall → Option (EsvDeviceList × DeviceSeen)
  | .add pk dn => do return (← esvDeviceListAdd hash calloc list pk dn, .done)
  | .del pk dn => do return (← esvDeviceListDel hash list pk dn, .done)
  | .isIn pk dn => do return (list, .found (← isDeviceInDeviceList hash list pk dn))
  | .load infos => do
    let loaded ← esvAdapterDriverLoadDevices hash calloc type addDevices list infos
    return (loaded.1, .given loaded.2)

end

/- The devices as a finite set. -/

namespace DeviceSet

def Short (key : DeviceListKey) : Prop :=
  key.1.strlen < ESV_PK_NAME_LEN ∧ key.2.strlen < ESV_DN_NAME_LEN

instance (key : DeviceListKey) : Decidable (Short key) := inferInstanceAs (Decidable (_ ∧ _))

def Loadable (infos : List EsvDeviceInfo) : Prop :=
  infos.length < 2 ^ 16 ∧ ∀ info ∈ infos, Short info.key

instance (infos : List EsvDeviceInfo) : Decidable (Loadable infos) :=
  inferInstanceAs (Decidable (_ ∧ _))

def load (s : Finset DeviceListKey) (infos : List EsvDeviceInfo) : Finset DeviceListKey :=
  s ∪ (infos.map EsvDeviceInfo.key).toFinset

def step (type : NeuNodeType) (addDevices : Bool) (s : Finset DeviceListKey) :
    DeviceCall → Option (Finset DeviceListKey × DeviceSeen)
  | .add pk dn => if Short (pk, dn) then some (insert (pk, dn) s, .done) else none
  | .del pk dn => if Short (pk, dn) then some (s.erase (pk, dn), .done) else none
  | .isIn pk dn => if Short (pk, dn) then some (s, .found (decide ((pk, dn) ∈ s))) else none
  | .load infos =>
    if Loadable infos then
      some (load s infos, .given (if type = .esvdevicedriver ∧ addDevices then some infos else none))
    else none

end DeviceSet

open DeviceSet

def HoldsDevices (hash : DeviceListKey → ℕ) (list : EsvDeviceList) (s : Finset DeviceListKey) :
    Prop :=
  ∃ t : Table DeviceListKey Unit, HoldsPairs hash (fun _ => ()) list.list t ∧ t.keys.toFinset = s

section
variable {hash : DeviceListKey → ℕ} {list : EsvDeviceList} {s : Finset DeviceListKey}

theorem new_holds : HoldsDevices hash esvDeviceListNew ∅ := ⟨.empty, holdsPairs_empty, rfl⟩

theorem HoldsDevices.find (holds : HoldsDevices hash list s) (key : DeviceListKey) :
    (hashFind hash list.list key).isSome = decide (key ∈ s) := by
  obtain ⟨t, rep, rfl⟩ := holds
  have found := congrArg Option.isSome (rep.find key)
  rw [Option.isSome_map] at found
  rw [found, Bool.eq_iff_iff, Table.find_isSome, decide_eq_true_iff, List.mem_toFinset]

theorem toDeviceListKey_short (pk dn : CStr) :
    toDeviceListKey pk dn = if Short (pk, dn) then some (pk, dn) else none := rfl

theorem HoldsDevices.add (holds : HoldsDevices hash list s) (calloc : Calloc) {pk dn : CStr}
    (short : Short (pk, dn)) :
    ∃ after, esvDeviceListAdd hash calloc list pk dn = some after ∧
      HoldsDevices hash after (insert (pk, dn) s) := by
  have known := holds.find (pk, dn)
  rw [esvDeviceListAdd, toDeviceListKey_short, if_pos short]
  cases found : hashFind hash list.list (pk, dn) with
  | some h =>
    rw [found] at known
    have inside : (pk, dn) ∈ s := of_decide_eq_true known.symm
    have kept : HoldsDevices hash list (insert (pk, dn) s) := by
      rw [Finset.insert_eq_of_mem inside]
      exact holds
    refine ⟨list, ?_, kept⟩
    rw [Option.bind_eq_bind, Option.bind_some, found]
    rfl
  | none =>
    obtain ⟨t, rep, rfl⟩ := holds
    have absent : t.find (pk, dn) = none := by rw [← rep.find, found, Option.map_none]
    have fresh := (calloc (hashIter list.list)).2
    have added := rep.add (v := ()) absent fresh (fun _ _ => rfl) rfl
    have keys : (t.insert (pk, dn) ()).keys.toFinset = insert (pk, dn) t.keys.toFinset := by
      ext key
      simp only [List.mem_toFinset, Table.mem_keys_insert, Finset.mem_insert]
      exact or_comm
    refine ⟨⟨hashAdd hash list.list (pk, dn) (calloc (hashIter list.list)).1⟩, ?_, _, added, keys⟩
    rw [Option.bind_eq_bind, Option.bind_some, found]
    rfl

theorem add_long (calloc : Calloc) {pk dn : CStr} (long : ¬ Short (pk, dn)) :
    esvDeviceListAdd hash calloc list pk dn = none := by
  rw [esvDeviceListAdd, toDeviceListKey_short, if_neg long]
  rfl

theorem HoldsDevices.del (holds : HoldsDevices hash list s) {pk dn : CStr} (short : Short (pk, dn)) :
    ∃ after, esvDeviceListDel hash list pk dn = some after ∧
      HoldsDevices hash after (s.erase (pk, dn)) := by
  obtain ⟨t, rep, rfl⟩ := holds
  rw [esvDeviceListDel, toDeviceListKey_short, if_pos short]
  refine ⟨_, rfl, _, (rep.findDelete (pk, dn)).1, ?_⟩
  ext key
  simp only [List.mem_toFinset, Table.mem_keys_erase, Finset.mem_erase]
  exact and_comm

theorem del_long {pk dn : CStr} (long : ¬ Short (pk, dn)) :
    esvDeviceListDel hash list pk dn = none := by
  rw [esvDeviceListDel, toDeviceListKey_short, if_neg long]
  rfl

theorem HoldsDevices.isIn (holds : HoldsDevices hash list s) (pk dn : CStr) :
    isDeviceInDeviceList hash list pk dn =
      if Short (pk, dn) then some (decide ((pk, dn) ∈ s)) else none := by
  rw [isDeviceInDeviceList, toDeviceListKey_short]
  split
  · exact congrArg some (holds.find (pk, dn))
  · rfl

theorem HoldsDevices.unpack (holds : HoldsDevices hash list s) (calloc : Calloc)
    {deviceCnt index : ℕ} {infos : List EsvDeviceInfo} (room : index + infos.length ≤ deviceCnt)
    (short : ∀ info ∈ infos, Short info.key) :
    ∃ after, unpackDevices hash calloc deviceCnt index infos list = some after ∧
      HoldsDevices hash after (load s infos) := by
  induction infos generalizing index list s with
  | nil => exact ⟨list, rfl, by simpa [load] using holds⟩
  | cons p rest ih =>
    rw [List.length_cons] at room
    obtain ⟨here, others⟩ := List.forall_mem_cons.1 short
    obtain ⟨next, added, held⟩ := holds.add calloc here
    have behind : index + 1 + rest.length ≤ deviceCnt := by omega
    obtain ⟨after, unpacked, last⟩ := ih held behind others
    have inside : index < deviceCnt := by omega
    refine ⟨after, ?_, ?_⟩
    · rw [unpackDevices, if_pos inside, added]
      exact unpacked
    · have same : load (insert p.key s) rest = load s (p :: rest) := by
        rw [load, load, List.map_cons, List.toFinset_cons, Finset.insert_union, Finset.union_insert]
      exact same ▸ last

theorem unpack_some {calloc : Calloc} {deviceCnt index : ℕ} {infos : List EsvDeviceInfo}
    {after : EsvDeviceList} (start : index ≤ deviceCnt)
    (unpacked : unpackDevices hash calloc deviceCnt index infos list = some after) :
    index + infos.length ≤ deviceCnt ∧ ∀ info ∈ infos, Short info.key := by
  induction infos generalizing index list with
  | nil => exact ⟨start, List.forall_mem_nil _⟩
  | cons p rest ih =>
    rw [unpackDevices] at unpacked
    split at unpacked
    · next inside =>
      obtain ⟨next, added, further⟩ := Option.bind_eq_some_iff.1 unpacked
      obtain ⟨room, others⟩ := ih inside further
      have here : Short p.key := by
        by_contra long
        cases added.symm.trans (add_long _ long)
      refine ⟨?_, List.forall_mem_cons.2 ⟨here, others⟩⟩
      rw [List.length_cons]
      omega
    · cases unpacked

variable {infos : List EsvDeviceInfo}

theorem HoldsDevices.load (holds : HoldsDevices hash list s) (calloc : Calloc) (type : NeuNodeType)
    (addDevices : Bool) (loadable : Loadable infos) :
    ∃ after, esvAdapterDriverLoadDevices hash calloc type addDevices list infos =
        some (after, if type = .esvdevicedriver ∧ addDevices then some infos else none) ∧
      HoldsDevices hash after (DeviceSet.load s infos) := by
  have count : infos.length % 2 ^ 16 = infos.length := Nat.mod_eq_of_lt loadable.1
  have room : 0 + infos.length ≤ infos.length % 2 ^ 16 := by omega
  obtain ⟨after, unpacked, held⟩ := holds.unpack calloc room loadable.2
  refine ⟨after, ?_, held⟩
  rw [esvAdapterDriverLoadDevices, unpacked]
  rfl

theorem load_unloadable (calloc : Calloc) (type : NeuNodeType) (addDevices : Bool)
    (unloadable : ¬ Loadable infos) :
    esvAdapterDriverLoadDevices hash calloc type addDevices list infos = none := by
  rw [esvAdapterDriverLoadDevices]
  cases unpacked : unpackDevices hash calloc (infos.length % 2 ^ 16) 0 infos list with
  | none => rfl
  | some after =>
    obtain ⟨room, short⟩ := unpack_some (Nat.zero_le _) unpacked
    have below := Nat.mod_lt infos.length (Nat.two_pow_pos 16)
    exact absurd ⟨by omega, short⟩ unloadable

theorem deviceStep_holds (holds : HoldsDevices hash list s) (calloc : Calloc) (type : NeuNodeType)
    (addDevices : Bool) (call : DeviceCall) :
    Option.Rel (fun next next' => HoldsDevices hash next.1 next'.1 ∧ next.2 = next'.2)
      (deviceStep hash calloc type addDevices list call)
      (DeviceSet.step type addDevices s call) := by
  cases call with
  | add pk dn =>
    rw [deviceStep, DeviceSet.step]
    by_cases short : Short (pk, dn)
    · obtain ⟨after, added, held⟩ := holds.add calloc short
      rw [added, if_pos short]
      exact .some ⟨held, rfl⟩
    · rw [add_long calloc short, if_neg short]
      exact .none
  | del pk dn =>
    rw [deviceStep, DeviceSet.step]
    by_cases short : Short (pk, dn)
    · obtain ⟨after, deleted, held⟩ := holds.del short
      rw [deleted, if_pos short]
      exact .some ⟨held, rfl⟩
    · rw [del_long short, if_neg short]
      exact .none
  | isIn pk dn =>
    rw [deviceStep, DeviceSet.step, holds.isIn]
    split
    · exact .some ⟨holds, rfl⟩
    · exact .none
  | load infos =>
    rw [deviceStep, DeviceSet.step]
    by_cases loadable : Loadable infos
    · obtain ⟨after, loaded, held⟩ := holds.load calloc type addDevices loadable
      rw [loaded, if_pos loadable]
      exact .some ⟨held, rfl⟩
    · rw [load_unloadable calloc type addDevices loadable, if_neg loadable]
      exact .none

end

theorem deviceList_refines_set (hash : DeviceListKey → ℕ) (calloc : Calloc) (type : NeuNodeType)
    (addDevices : Bool) (calls : List DeviceCall) :
    (observe (deviceStep hash calloc type addDevices) esvDeviceListNew calls).map Prod.snd =
      (observe (DeviceSet.step type addDevices) ∅ calls).map Prod.snd := by
  have matched (list : EsvDeviceList) (s : Finset DeviceListKey) (call : DeviceCall)
      (holds : HoldsDevices hash list s) := deviceStep_holds holds calloc type addDevices call
  exact observe_same matched new_holds calls

/- The devices of a driver and the nodes that a device is bound to. -/

section
variable {db : DeviceDb} {node pk dn : CStr}

theorem sqlEq_iff {column : Option CStr} {text : CStr} :
    sqlEq column (some text) = true ↔ column = some text := by
  cases column <;> simp [sqlEq]

theorem row_selected :
    (∃ row ∈ deviceRows db node, row.productKey = some pk ∧ row.deviceName = some dn) ↔
      some node ∈ deviceNodes db.thingDb (some pk) (some dn) := by
  simp only [deviceRows, deviceNodes, DeviceDb.thingDb, List.mem_flatMap, List.mem_map,
    List.mem_filter, Bool.and_eq_true, sqlEq_iff]
  constructor
  · rintro ⟨row, ⟨device, held, other, ⟨joined, bound, named⟩, rfl⟩, product, name⟩
    refine ⟨_, ⟨device, held, rfl⟩, ?_⟩
    rw [if_pos ⟨product, name⟩]
    exact List.mem_map.2 ⟨other, List.mem_filter.2 ⟨joined, sqlEq_iff.2 bound⟩, named⟩
  · rintro ⟨_, ⟨device, held, rfl⟩, inside⟩
    split at inside
    · next same =>
      obtain ⟨other, joined, named⟩ := List.mem_map.1 inside
      obtain ⟨there, bound⟩ := List.mem_filter.1 joined
      exact ⟨device, ⟨device, held, other, ⟨there, sqlEq_iff.1 bound, named⟩, rfl⟩, same⟩
    · cases inside

theorem info_columns {row : DeviceRow} {info : EsvDeviceInfo} (read : row.info = some info) :
    row.productKey = some info.productKey ∧ row.deviceName = some info.deviceName := by
  simp only [DeviceRow.info, Option.bind_eq_bind, Option.bind_eq_some_iff, Option.pure_def,
    Option.some.injEq] at read
  obtain ⟨product, productKey, name, deviceName, _, _, _, _, rfl⟩ := read
  exact ⟨productKey, deviceName⟩

theorem collected_keys {rows : List DeviceRow} {infos : List EsvDeviceInfo}
    (collected : rows.mapM DeviceRow.info = some infos) :
    (pk, dn) ∈ infos.map EsvDeviceInfo.key ↔
      ∃ row ∈ rows, row.productKey = some pk ∧ row.deviceName = some dn := by
  rw [List.mem_map]
  constructor
  · rintro ⟨info, inside, key⟩
    obtain ⟨row, held, read⟩ := mapM_origin collected inside
    obtain ⟨product, name⟩ := info_columns read
    cases key
    exact ⟨row, held, product, name⟩
  · rintro ⟨row, held, product, name⟩
    obtain ⟨info, read⟩ := mapM_defined collected held
    obtain ⟨product', name'⟩ := info_columns read
    have inside : some info ∈ infos.map some :=
      mapM_eq_some_iff.1 collected ▸ read ▸ List.mem_map_of_mem held
    refine ⟨info, (List.mem_map_of_injective (Option.some_injective _)).1 inside, ?_⟩
    rw [EsvDeviceInfo.key, Option.some.inj (product'.symm.trans product),
      Option.some.inj (name'.symm.trans name)]

/-- A driver that was created has the keys of its rows in its list, and its plugin has the rows. -/
theorem created_holds {hash : DeviceListKey → ℕ} {calloc : Calloc} {type : NeuNodeType}
    {addDevices : Bool} {list : EsvDeviceList} {told : Option (List EsvDeviceInfo)} {rv : Int}
    (created : adapterLoadDevice hash calloc type addDevices db node ⟨true, none⟩ esvDeviceListNew =
      some (list, told, rv)) :
    ∃ infos, (deviceRows db node).mapM DeviceRow.info = some infos ∧
      HoldsDevices hash list (load ∅ infos) ∧
        told = if type = .esvdevicedriver ∧ addDevices then some infos else none := by
  unfold adapterLoadDevice esvPersisterLoadDevices collectDeviceInfo at created
  rw [if_pos rfl, Option.elim_none] at created
  cases collected : (deviceRows db node).mapM DeviceRow.info with
  | none =>
    rw [collected] at created
    cases created
  | some infos =>
    rw [collected] at created
    have run : (esvAdapterDriverLoadDevices hash calloc type addDevices esvDeviceListNew infos).bind
        (fun loaded => some (loaded.1, loaded.2, 0)) = some (list, told, rv) := created
    obtain ⟨⟨after, given⟩, loaded, same⟩ := Option.bind_eq_some_iff.1 run
    cases same
    by_cases loadable : Loadable infos
    · have start : HoldsDevices hash esvDeviceListNew ∅ := new_holds
      obtain ⟨last, ran, held⟩ := start.load calloc type addDevices loadable
      cases ran.symm.trans loaded
      exact ⟨infos, rfl, held, rfl⟩
    · cases (load_unloadable calloc type addDevices loadable).symm.trans loaded

end

def houseDevices : DeviceDb where
  pluginNode := [⟨.lit "7", some (.lit "KNX"), 9, none⟩, ⟨.lit "8", some (.lit "Modbus"), 9, none⟩]
  thingDevice :=
    [⟨⟨some (.lit "lamp"), some (.lit "one"), some (.lit "8")⟩, some .empty, some .empty⟩,
      ⟨⟨some (.lit "fan"), some (.lit "two"), some (.lit "8")⟩, some .empty, some .empty⟩,
      ⟨⟨some (.lit "lamp"), some (.lit "one"), some (.lit "7")⟩, some .empty, some .empty⟩]

def keyLength (key : DeviceListKey) : ℕ := key.1.strlen + key.2.strlen

end Cpm
