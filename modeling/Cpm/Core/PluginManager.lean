import Cpm.Core.NodeTable

/-! `plugin_manager.c` over a table of `uthash.h`: the plugins that were registered from their
libraries, and what every run of the manager leaves among them. -/
namespace Cpm

open Lib

def NEU_PLUGIN_KIND_SYSTEM : ℕ := 1
def NEU_PLUGIN_KIND_CUSTOM : ℕ := 2

def NEU_PLUGIN_MAGIC_NUMBER : ℕ := 0x43474d50

def PLUGIN_NAME_LEN : ℕ := 128
def NEU_PLUGIN_LIBRARY_LEN : ℕ := 128
def NEU_PLUGIN_DESCRIPTION_LEN : ℕ := 512

def NEU_ERR_LIBRARY_INFO_INVALID : Int := 2302
def NEU_ERR_LIBRARY_NAME_CONFLICT : Int := 2303
def NEU_ERR_LIBRARY_FAILED_TO_OPEN : Int := 2304
def NEU_ERR_LIBRARY_MODULE_INVALID : Int := 2305
def NEU_ERR_LIBRARY_SYSTEM_NOT_ALLOW_DEL : Int := 2306

/-- `neu_plugin_module_t`, as a library defines it. `opened` is what its `open` returns: the magic
number of a plugin, or NULL. -/
structure NeuPluginModule where
  schema : CStr
  moduleName : CStr
  moduleDescr : CStr
  moduleDescrZh : CStr
  type : ℕ
  kind : ℕ
  display : Bool
  single : Bool
  singleName : CStr
  opened : Option ℕ
  deriving DecidableEq, Repr

inductive PluginLibrary where
  | unopened
  | noModule
  | module (pm : NeuPluginModule)

structure PluginCell where
  schema : CStr
  name : CStr
  libName : CStr
  description : CStr
  descriptionZh : CStr
  kind : ℕ
  type : ℕ
  display : Bool
  single : Bool
  singleName : Option CStr
  deriving DecidableEq, Repr

/-- `neu_resp_plugin_info_t`. Its texts are character arrays, which a longer text fills. -/
structure PluginInfo where
  schema : List Char
  name : List Char
  library : List Char
  description : List Char
  descriptionZh : List Char
  kind : ℕ
  type : ℕ
  display : Bool
  single : Bool
  singleName : List Char
  deriving DecidableEq, Repr

def strncpyField (size : ℕ) (s : CStr) : List Char := s.chars.take size

namespace PluginCell

def ofModule (libName : CStr) (pm : NeuPluginModule) : PluginCell where
  schema := pm.schema
  name := pm.moduleName
  libName := libName
  description := pm.moduleDescr
  descriptionZh := pm.moduleDescrZh
  kind := pm.kind
  type := pm.type
  display := pm.display
  single := pm.single
  singleName := if pm.single then some pm.singleName else none

/-- The record of a listed plugin. Only the list of the single ones fills the last fields. -/
def listed (c : PluginCell) : PluginInfo where
  schema := strncpyField PLUGIN_NAME_LEN c.schema
  name := strncpyField PLUGIN_NAME_LEN c.name
  library := strncpyField NEU_PLUGIN_LIBRARY_LEN c.libName
  description := strncpyField NEU_PLUGIN_DESCRIPTION_LEN c.description
  descriptionZh := strncpyField NEU_PLUGIN_DESCRIPTION_LEN c.descriptionZh
  kind := c.kind
  type := c.type
  display := c.display
  single := c.single
  singleName := if c.single then strncpyField PLUGIN_NAME_LEN (c.singleName.getD .empty) else []

/-- The record that a lookup fills, which leaves two texts as they were. -/
def found (c : PluginCell) : PluginInfo :=
  { c.listed with
    schema := []
    descriptionZh := []
    singleName := (c.singleName.getD .empty).chars }

end PluginCell

def registeredPath (libName : CStr) : CStr := (CStr.sprintf "./plugins/%s" [libName]).cut 254

def checkedModule : PluginLibrary → Except Int NeuPluginModule
  | .unopened => .error NEU_ERR_LIBRARY_FAILED_TO_OPEN
  | .noModule => .error NEU_ERR_LIBRARY_MODULE_INVALID
  | .module pm =>
    if pm.kind ≠ NEU_PLUGIN_KIND_CUSTOM ∧ pm.kind ≠ NEU_PLUGIN_KIND_SYSTEM then
      .error NEU_ERR_LIBRARY_INFO_INVALID
    else if pm.type ≠ NeuNodeType.esvdevicedriver.code ∧ pm.type ≠ NeuNodeType.esvapp.code ∧
        pm.type ≠ NeuNodeType.esvselfdevicedriver.code then
      .error NEU_ERR_LIBRARY_INFO_INVALID
    else .ok pm

inductive PluginRequest where
  | add (libName : CStr)
  | del (name : CStr)
  | get
  | getSingle
  | find (name : CStr)
  | known (name : CStr)
  | isSingle (name : CStr)

inductive PluginAnswer where
  | code (rv : Int)
  | infos (all : List PluginInfo)
  | info (found : Option PluginInfo)
  | flag (b : Bool)
  deriving DecidableEq

structure NeuPluginManager where
  plugins : UtHash CStr ℕ
  cells : ℕ → PluginCell

namespace NeuPluginManager

variable (hash : CStr → ℕ) (calloc : Calloc) (dlopen : CStr → PluginLibrary)

def create (cells : ℕ → PluginCell) : NeuPluginManager := ⟨none, cells⟩

def entityAt (mgr : NeuPluginManager) (name : CStr) : Option PluginCell :=
  (hashFind hash mgr.plugins name).map fun h => mgr.cells h.elem

/-- An assertion stops a name of a library that is too long: `none`. -/
def neuPluginManagerAdd (mgr : NeuPluginManager) (libName : CStr) :
    Option (NeuPluginManager × Int) :=
  if libName.strlen ≤ NEU_PLUGIN_LIBRARY_LEN then
    match checkedModule (dlopen (registeredPath libName)) with
    | .error rv => some (mgr, rv)
    | .ok pm =>
      if (hashFind hash mgr.plugins pm.moduleName).isSome then
        some (mgr, NEU_ERR_LIBRARY_NAME_CONFLICT)
      else
        let addr := (calloc (hashIter mgr.plugins)).1
        some ({ plugins := hashAdd hash mgr.plugins pm.moduleName addr
                cells := Function.update mgr.cells addr (.ofModule libName pm) }, NEU_ERR_SUCCESS)
  else none

def neuPluginManagerDel (mgr : NeuPluginManager) (name : CStr) : NeuPluginManager × Int :=
  match hashFind hash mgr.plugins name with
  | none => (mgr, NEU_ERR_LIBRARY_SYSTEM_NOT_ALLOW_DEL)
  | some h =>
    if (mgr.cells h.elem).kind ≠ NEU_PLUGIN_KIND_SYSTEM then
      ({ mgr with plugins := hashDelete mgr.plugins h }, NEU_ERR_SUCCESS)
    else (mgr, NEU_ERR_LIBRARY_SYSTEM_NOT_ALLOW_DEL)

def neuPluginManagerGet (mgr : NeuPluginManager) : List PluginInfo :=
  (((hashIter mgr.plugins).map mgr.cells).filter fun c => !c.single).map PluginCell.listed

def neuPluginManagerGetSingle (mgr : NeuPluginManager) : List PluginInfo :=
  (((hashIter mgr.plugins).map mgr.cells).filter fun c => c.single).map PluginCell.listed

def neuPluginManagerFind (mgr : NeuPluginManager) (name : CStr) : Option PluginInfo :=
  (mgr.entityAt hash name).map PluginCell.found

def neuPluginManagerExists (mgr : NeuPluginManager) (name : CStr) : Bool :=
  (mgr.entityAt hash name).isSome

def neuPluginManagerIsSingle (mgr : NeuPluginManager) (name : CStr) : Bool :=
  (mgr.entityAt hash name).elim false PluginCell.single

def step (mgr : NeuPluginManager) : PluginRequest → Option (NeuPluginManager × PluginAnswer)
  | .add libName =>
    (mgr.neuPluginManagerAdd hash calloc dlopen libName).map fun added => (added.1, .code added.2)
  | .del name =>
    let deleted := mgr.neuPluginManagerDel hash name
    some (deleted.1, .code deleted.2)
  | .get => some (mgr, .infos mgr.neuPluginManagerGet)
  | .getSingle => some (mgr, .infos mgr.neuPluginManagerGetSingle)
  | .find name => some (mgr, .info (mgr.neuPluginManagerFind hash name))
  | .known name => some (mgr, .flag (mgr.neuPluginManagerExists hash name))
  | .isSingle name => some (mgr, .flag (mgr.neuPluginManagerIsSingle hash name))

end NeuPluginManager

/- The plugins as a finite map. -/

namespace PluginMap

def add (dlopen : CStr → PluginLibrary) (t : Table CStr PluginCell) (libName : CStr) :
    Option (Table CStr PluginCell × Int) :=
  if libName.strlen ≤ NEU_PLUGIN_LIBRARY_LEN then
    match checkedModule (dlopen (registeredPath libName)) with
    | .error rv => some (t, rv)
    | .ok pm =>
      if (t.find pm.moduleName).isSome then some (t, NEU_ERR_LIBRARY_NAME_CONFLICT)
      else some (t.insert pm.moduleName (.ofModule libName pm), NEU_ERR_SUCCESS)
  else none

def del (t : Table CStr PluginCell) (name : CStr) : Table CStr PluginCell × Int :=
  match t.find name with
  | none => (t, NEU_ERR_LIBRARY_SYSTEM_NOT_ALLOW_DEL)
  | some c =>
    if c.kind ≠ NEU_PLUGIN_KIND_SYSTEM then (t.erase name, NEU_ERR_SUCCESS)
    else (t, NEU_ERR_LIBRARY_SYSTEM_NOT_ALLOW_DEL)

def step (dlopen : CStr → PluginLibrary) (t : Table CStr PluginCell) :
    PluginRequest → Option (Table CStr PluginCell × PluginAnswer)
  | .add libName => (add dlopen t libName).map fun added => (added.1, .code added.2)
  | .del name => some ((del t name).1, .code (del t name).2)
  | .get => some (t, .infos ((t.values.filter fun c => !c.single).map PluginCell.listed))
  | .getSingle => some (t, .infos ((t.values.filter fun c => c.single).map PluginCell.listed))
  | .find name => some (t, .info ((t.find name).map PluginCell.found))
  | .known name => some (t, .flag (t.find name).isSome)
  | .isSingle name => some (t, .flag ((t.find name).elim false PluginCell.single))

end PluginMap

/-- What a registered plugin must be: named by its key, of an allowed kind and type, and with
a name for its single node exactly where it has one. -/
structure Registered (name : CStr) (c : PluginCell) : Prop where
  named : c.name = name
  kind : c.kind = NEU_PLUGIN_KIND_CUSTOM ∨ c.kind = NEU_PLUGIN_KIND_SYSTEM
  type : c.type = NeuNodeType.esvdevicedriver.code ∨ c.type = NeuNodeType.esvapp.code ∨
    c.type = NeuNodeType.esvselfdevicedriver.code
  singleName : c.singleName.isSome = c.single

/-- The table of the manager holds the map, and every plugin in it is a registered one. -/
structure HoldsPlugins (hash : CStr → ℕ) (t : Table CStr PluginCell) (mgr : NeuPluginManager) :
    Prop where
  represents : HoldsPairs hash mgr.cells mgr.plugins t
  registered : ∀ name c, t.find name = some c → Registered name c

section
variable {hash : CStr → ℕ} {calloc : Calloc} {dlopen : CStr → PluginLibrary}
variable {mgr : NeuPluginManager} {t : Table CStr PluginCell}

open NeuPluginManager

theorem checked_registered {lib : PluginLibrary} {pm : NeuPluginModule} (libName : CStr)
    (passed : checkedModule lib = .ok pm) : Registered pm.moduleName (.ofModule libName pm) := by
  cases lib with
  | unopened => cases passed
  | noModule => cases passed
  | module own =>
    simp only [checkedModule] at passed
    split_ifs at passed with kind type
    cases passed
    refine ⟨rfl, ?_, ?_, ?_⟩
    · by_contra other
      exact kind (not_or.1 other)
    · by_contra other
      obtain ⟨first, others⟩ := not_or.1 other
      exact type ⟨first, not_or.1 others⟩
    · cases single : pm.single <;> simp [PluginCell.ofModule, single]

theorem HoldsPlugins.entity (holds : HoldsPlugins hash t mgr) (name : CStr) :
    mgr.entityAt hash name = t.find name := holds.represents.find name

/-- Every entity of the table is the one that its own name leads to. -/
theorem HoldsPlugins.listed (holds : HoldsPlugins hash t mgr) {a : ℕ}
    (inside : a ∈ hashIter mgr.plugins) :
    Registered (mgr.cells a).name (mgr.cells a) ∧
      mgr.entityAt hash (mgr.cells a).name = some (mgr.cells a) := by
  have value : mgr.cells a ∈ t.values := by
    rw [← holds.represents.iter]
    exact List.mem_map_of_mem inside
  obtain ⟨⟨name, c⟩, entry, same⟩ := List.mem_map.1 value
  have found : t.find name = some (mgr.cells a) := by
    rw [← same]
    exact Table.find_eq_some.2 entry
  have registered := holds.registered name _ found
  rw [registered.named, holds.entity]
  exact ⟨registered, found⟩

theorem HoldsPlugins.isSome (holds : HoldsPlugins hash t mgr) (name : CStr) :
    (hashFind hash mgr.plugins name).isSome = (t.find name).isSome := by
  rw [← holds.represents.find, Option.isSome_map]

theorem HoldsPlugins.add (holds : HoldsPlugins hash t mgr) {libName : CStr}
    {after : NeuPluginManager × Int}
    (ran : mgr.neuPluginManagerAdd hash calloc dlopen libName = some after) :
    ∃ t', PluginMap.add dlopen t libName = some (t', after.2) ∧ HoldsPlugins hash t' after.1 := by
  unfold neuPluginManagerAdd at ran
  unfold PluginMap.add
  split_ifs at ran ⊢ with short
  cases passed : checkedModule (dlopen (registeredPath libName)) with
  | error rv =>
    rw [passed] at ran
    cases ran
    exact ⟨t, rfl, holds⟩
  | ok pm =>
    rw [passed] at ran
    simp only [holds.isSome] at ran ⊢
    split_ifs at ran ⊢ with taken
    · cases ran
      exact ⟨t, rfl, holds⟩
    · cases ran
      have absent : t.find pm.moduleName = none := by simpa using taken
      have fresh := (calloc (hashIter mgr.plugins)).2
      refine ⟨_, rfl, ?_, ?_⟩
      · exact holds.represents.add absent fresh (update_others fresh (PluginCell.ofModule libName pm))
          (Function.update_self ..)
      · intro name c found
        obtain ⟨rfl, rfl⟩ | ⟨-, old⟩ := Table.find_insert_some found
        · exact checked_registered libName passed
        · exact holds.registered name c old

theorem HoldsPlugins.del (holds : HoldsPlugins hash t mgr) (name : CStr) :
    (mgr.neuPluginManagerDel hash name).2 = (PluginMap.del t name).2 ∧
      HoldsPlugins hash (PluginMap.del t name).1 (mgr.neuPluginManagerDel hash name).1 := by
  have seen := holds.represents.find name
  unfold neuPluginManagerDel PluginMap.del
  obtain ⟨nothing, -⟩ | ⟨h, held, found, rfl⟩ :=
    hashFind_cases holds.represents.wellFormed name
  · rw [nothing] at seen ⊢
    rw [← seen]
    exact ⟨rfl, holds⟩
  · rw [found] at seen ⊢
    rw [← seen]
    simp only [Option.map_some]
    split_ifs
    · refine ⟨rfl, holds.represents.delete held, fun other c kept => ?_⟩
      exact holds.registered other c (Table.find_erase_some.1 kept).2
    · exact ⟨rfl, holds⟩

theorem pluginStep_holds (t : Table CStr PluginCell) (mgr : NeuPluginManager) (call : PluginRequest)
    (mgr' : NeuPluginManager) (seen : PluginAnswer) (holds : HoldsPlugins hash t mgr)
    (stepped : mgr.step hash calloc dlopen call = some (mgr', seen)) :
    ∃ t', PluginMap.step dlopen t call = some (t', seen) ∧ HoldsPlugins hash t' mgr' := by
  have iter := holds.represents.iter
  cases call with
  | add libName =>
    obtain ⟨after, ran, same⟩ := Option.map_eq_some_iff.1 stepped
    cases same
    obtain ⟨t', added, kept⟩ := holds.add ran
    exact ⟨t', by rw [PluginMap.step, added, Option.map_some], kept⟩
  | del name =>
    cases stepped
    obtain ⟨same, kept⟩ := holds.del name
    exact ⟨_, by rw [PluginMap.step, same], kept⟩
  | get =>
    cases stepped
    exact ⟨t, by rw [PluginMap.step, neuPluginManagerGet, iter], holds⟩
  | getSingle =>
    cases stepped
    exact ⟨t, by rw [PluginMap.step, neuPluginManagerGetSingle, iter], holds⟩
  | find name =>
    cases stepped
    exact ⟨t, by rw [PluginMap.step, neuPluginManagerFind, holds.entity], holds⟩
  | known name =>
    cases stepped
    exact ⟨t, by rw [PluginMap.step, neuPluginManagerExists, holds.entity], holds⟩
  | isSingle name =>
    cases stepped
    exact ⟨t, by rw [PluginMap.step, neuPluginManagerIsSingle, holds.entity], holds⟩

theorem pluginRun_holds {cells : ℕ → PluginCell} {calls : List PluginRequest}
    {seen : List PluginAnswer}
    (ran : Run.observe (NeuPluginManager.step hash calloc dlopen) (.create cells) calls =
      some (mgr, seen)) :
    ∃ t, Run.observe (PluginMap.step dlopen) .empty calls = some (t, seen) ∧
      HoldsPlugins hash t mgr := by
  apply Run.same_observations pluginStep_holds _ ran
  exact ⟨holdsPairs_empty, fun name c found => nomatch found⟩

theorem system_stays {call : PluginRequest} {t' : Table CStr PluginCell} {seen : PluginAnswer}
    (stepped : PluginMap.step dlopen t call = some (t', seen)) {name : CStr} {c : PluginCell}
    (found : t.find name = some c) (system : c.kind = NEU_PLUGIN_KIND_SYSTEM) :
    t'.find name = some c := by
  cases call with
  | add libName =>
    obtain ⟨⟨after, rv⟩, added, same⟩ := Option.map_eq_some_iff.1 stepped
    cases same
    unfold PluginMap.add at added
    split_ifs at added
    split at added
    · cases added
      exact found
    · next pm passed =>
      split_ifs at added with taken
      · cases added
        exact found
      · cases added
        have apart : name ≠ pm.moduleName := by
          rintro rfl
          exact taken (by rw [found]; rfl)
        rw [Table.find_insert, if_neg apart]
        exact found
  | del other =>
    cases stepped
    unfold PluginMap.del
    cases there : t.find other with
    | none => exact found
    | some d =>
      simp only
      split_ifs with removable
      · have apart : name ≠ other := by
          rintro rfl
          rw [found] at there
          cases there
          exact removable system
        rw [Table.find_erase, if_neg apart]
        exact found
      · exact found
  | get | getSingle | find _ | known _ | isSingle _ =>
    cases stepped
    exact found

theorem system_stays_run {calls : List PluginRequest} {t' : Table CStr PluginCell}
    {seen : List PluginAnswer}
    (ran : Run.observe (PluginMap.step dlopen) t calls = some (t', seen)) {name : CStr}
    {c : PluginCell} (found : t.find name = some c) (system : c.kind = NEU_PLUGIN_KIND_SYSTEM) :
    t'.find name = some c := by
  induction calls generalizing t seen with
  | nil =>
    cases ran
    exact found
  | cons call rest ih =>
    simp only [Run.observe, Option.bind_eq_bind, Option.bind_eq_some_iff] at ran
    obtain ⟨⟨next, o⟩, stepped, ⟨ended, further⟩, tail, same⟩ := ran
    cases same
    exact ih tail (system_stays stepped found system)

end

/-- In every run of the plugin manager every plugin in its table has passed the checks and is
found under its own name, and the two lists together give each of them once. -/
theorem pluginManager_registered (hash : CStr → ℕ) (calloc : Calloc)
    (dlopen : CStr → PluginLibrary) (cells : ℕ → PluginCell) (calls : List PluginRequest)
    (mgr : NeuPluginManager) (seen : List PluginAnswer)
    (ran : Run.observe (NeuPluginManager.step hash calloc dlopen) (.create cells) calls =
      some (mgr, seen)) :
    (∀ name c, mgr.entityAt hash name = some c → Registered name c) ∧
      (∀ a ∈ hashIter mgr.plugins, Registered (mgr.cells a).name (mgr.cells a) ∧
        mgr.entityAt hash (mgr.cells a).name = some (mgr.cells a)) ∧
      (mgr.neuPluginManagerGetSingle ++ mgr.neuPluginManagerGet).Perm
        (((hashIter mgr.plugins).map mgr.cells).map PluginCell.listed) ∧
      ((hashIter mgr.plugins).map fun a => (mgr.cells a).name).Nodup ∧
      hashFsckCounts mgr.plugins = true := by
  obtain ⟨t, -, holds⟩ := pluginRun_holds ran
  refine ⟨fun name c here => holds.registered name c (holds.entity name ▸ here),
    fun a inside => holds.listed inside, ?_, ?_, holds.represents.wellFormed.fsck⟩
  · rw [NeuPluginManager.neuPluginManagerGet, NeuPluginManager.neuPluginManagerGetSingle,
      ← List.map_append]
    exact (List.filter_append_perm PluginCell.single _).map _
  · have names : ((hashIter mgr.plugins).map fun a => (mgr.cells a).name) = t.keys := by
      have values := congrArg (List.map PluginCell.name) holds.represents.iter
      rw [List.map_map] at values
      refine Eq.trans values ?_
      rw [Table.values, Table.keys, List.map_map]
      apply List.map_congr_left
      intro e member
      exact (holds.registered e.1 e.2 (Table.find_eq_some.2 member)).named
    rw [names]
    exact t.nodup

def knxModule : NeuPluginModule :=
  ⟨.lit "knx", .lit "KNX", .lit "KNX bus", .empty, 9, NEU_PLUGIN_KIND_SYSTEM, true, false, .empty,
    some NEU_PLUGIN_MAGIC_NUMBER⟩

theorem pluginManager_registered_knx :
    Registered (.lit "KNX") (.ofModule (.lit "libknx.so") knxModule) :=
  (pluginManager_registered CStr.strlen callocAbove (fun _ => .module knxModule)
    (fun _ => .ofModule .empty knxModule) [.add (.lit "libknx.so")] _ _ rfl).1 (.lit "KNX") _ rfl

/-- A plugin of the system kind stays registered as it is, whatever is added or deleted after. -/
theorem system_plugin_permanent (hash : CStr → ℕ) (calloc : Calloc)
    (dlopen : CStr → PluginLibrary) (cells : ℕ → PluginCell) (calls more : List PluginRequest)
    (mgr mgr' : NeuPluginManager) (seen seen' : List PluginAnswer)
    (ran : Run.observe (NeuPluginManager.step hash calloc dlopen) (.create cells) calls =
      some (mgr, seen))
    (further : Run.observe (NeuPluginManager.step hash calloc dlopen) mgr more =
      some (mgr', seen'))
    (name : CStr) (c : PluginCell) (found : mgr.entityAt hash name = some c)
    (system : c.kind = NEU_PLUGIN_KIND_SYSTEM) : mgr'.entityAt hash name = some c := by
  obtain ⟨t, -, holds⟩ := pluginRun_holds ran
  obtain ⟨t', behind, ended⟩ := Run.same_observations pluginStep_holds holds further
  rw [ended.entity]
  exact system_stays_run behind (holds.entity name ▸ found) system

theorem system_plugin_permanent_knx :
    ((NeuPluginManager.create fun _ => .ofModule .empty knxModule).neuPluginManagerAdd CStr.strlen
      callocAbove (fun _ => .module knxModule) (.lit "libknx.so")).map (fun added =>
        (added.1.neuPluginManagerDel CStr.strlen (.lit "KNX")).1.entityAt CStr.strlen (.lit "KNX")) =
      some (some (.ofModule (.lit "libknx.so") knxModule)) :=
  congrArg some (system_plugin_permanent CStr.strlen callocAbove (fun _ => .module knxModule)
    (fun _ => .ofModule .empty knxModule) [.add (.lit "libknx.so")] [.del (.lit "KNX")] _ _ _ _ rfl
    rfl (.lit "KNX") _ rfl rfl)

end Cpm
