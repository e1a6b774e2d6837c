import Cpm.Core.AddNode
import Cpm.Core.PluginManager

/-! How the manager comes up: the plugins of the thing database, then its nodes. -/
namespace Cpm

open Lib NeuManager ManagerState

structure PluginLibRow where
  libName : Option CStr
  nodeType : ℕ
  deriving DecidableEq, Repr

structure NormalNodeRow where
  nodeId : Option CStr
  nodeName : Option CStr
  pluginName : Option CStr
  libName : Option CStr
  nodeConfig : Option CStr
  nodeType : ℕ
  deriving DecidableEq, Repr

def normalType (type : ℕ) : Bool := type = 9 || type = 10 || type = 11 || type = 15

/-- `strdup` of a column that is NULL ends the process: `none`. -/
def esvPersisterLoadNormalPluginsFromDb (rows : List PluginLibRow) : Option (List CStr) :=
  (rows.filter fun row => normalType row.nodeType).mapM PluginLibRow.libName

def esvPersisterLoadNormalNodes (rows : List NormalNodeRow) : Option (List (CStr × CStr)) :=
  (rows.filter fun row => normalType row.nodeType).mapM fun row => do
    let _ ← row.nodeId
    let nodeName ← row.nodeName
    let pluginName ← row.pluginName
    let _ ← row.libName
    let _ ← row.nodeConfig
    return (nodeName, pluginName)

def instancePath (pluginDir libName : CStr) : CStr := (CStr.sprintf "%s/%s" [pluginDir, libName]).cut 254

def PluginCell.nodeType (c : PluginCell) : NeuNodeType :=
  if c.type = NeuNodeType.esvdevicedriver.code then .esvdevicedriver
  else if c.type = NeuNodeType.esvapp.code then .esvapp
  else .esvselfdevicedriver

def PluginCell.info (c : PluginCell) : PluginEntity := ⟨c.nodeType, c.single, c.display⟩

/-- `open` gives a plugin, which passes `neu_plugin_common_check`. -/
def PluginLibrary.opensPlugin : PluginLibrary → Bool
  | .module pm => pm.opened = some NEU_PLUGIN_MAGIC_NUMBER
  | .unopened | .noModule => false

/-- The assertions on the way to the init of an instance, those of
`neu_plugin_manager_create_instance` on the library and those of `neu_adapter_create` on what it
opens. An adapter is made for every registered type. -/
def instanceOpens (dlopen : CStr → PluginLibrary) (pluginDir : CStr) (t : Table CStr PluginCell)
    (plugin : CStr) : Bool :=
  match t.find plugin with
  | none => false
  | some c => (dlopen (instancePath pluginDir c.libName)).opensPlugin

/-- `esv_manager_load_normal_plugin_from_db`. A library that is turned down is skipped. -/
def esvManagerLoadNormalPluginFromDb (dlopen : CStr → PluginLibrary) (libs : List CStr) :
    Option (Table CStr PluginCell) :=
  libs.foldlM (fun t lib => (PluginMap.add dlopen t lib).map Prod.fst) .empty

/-- `esv_manager_load_normal_node`. A node that is turned down is skipped. -/
def esvManagerLoadNormalNode (w : World) (opens : CStr → Bool) (s : ManagerState)
    (nodes : List (CStr × CStr)) : Option ManagerState :=
  nodes.foldlM (fun s node => (neuManagerAddNode w opens s node.1 node.2).map Prod.fst) s

def neuManagerCreate (w : World) (dlopen : CStr → PluginLibrary) (pluginDir : CStr)
    (libRows : List PluginLibRow) (nodeRows : List NormalNodeRow) : Option ManagerState := do
  let libs ← esvPersisterLoadNormalPluginsFromDb libRows
  let t ← esvManagerLoadNormalPluginFromDb dlopen libs
  let nodes ← esvPersisterLoadNormalNodes nodeRows
  esvManagerLoadNormalNode w (instanceOpens dlopen pluginDir t)
    ⟨.initial, t.map PluginCell.info, fun _ => ⟨0, .empty, 0, 0⟩⟩ nodes

def hosts (plugins : Table CStr PluginEntity) (plugin : CStr) : Bool :=
  match plugins.find plugin with
  | none => false
  | some info => !info.single

/-- The rows that nodes are created from: the plugin can have nodes and the name is new. -/
def bootedRows (plugins : Table CStr PluginEntity) (names : List CStr) :
    List (CStr × CStr) → List (CStr × CStr)
  | [] => []
  | row :: rest =>
    if hosts plugins row.2 ∧ row.1 ∉ names then row :: bootedRows plugins (names ++ [row.1]) rest
    else bootedRows plugins names rest

theorem bootedRows_subset (plugins : Table CStr PluginEntity) (names : List CStr)
    (rows : List (CStr × CStr)) : bootedRows plugins names rows ⊆ rows := by
  induction rows generalizing names with
  | nil => exact List.Subset.refl []
  | cons row rest ih =>
    rw [bootedRows]
    split_ifs
    · exact List.cons_subset_cons row (ih _)
    · exact List.subset_cons_of_subset row (ih names)

section
variable {w : World} {opens : CStr → Bool} {s after : ManagerState} {node plugin : CStr} {rv : Int}

theorem started_last {manager : NeuManager} {es : List (CStr × NodeEntity)} {adapter : NeuAdapter}
    (entity : NodeEntity) {request : NeuAdapter → Served}
    (last : manager.nodes.entries = es ++ [(node, entity)])
    (found : manager.neuNodeManagerFind node = some adapter) :
    (serveNode manager node request).nodes.entries =
      es ++ [(node, { entity with adapter := (request adapter).adapter })] := by
  rw [serveNode, found]
  exact Table.entries_modify_last last _

/-- All that an addition does: nothing, or a started adapter behind the others. -/
theorem addNode_cases (ran : neuManagerAddNode w opens s node plugin = some (after, rv)) :
    (after = s ∧ (hosts s.plugins plugin = false ∨ known s.manager node = true)) ∨
      (hosts s.plugins plugin = true ∧ known s.manager node = false ∧ after.plugins = s.plugins ∧
        ∃ info created entity, s.plugins.find plugin = some info ∧
          (neuAdapterCreate (w.plugin node) (esvPersisterLoadNodeConfig w.db node) node
            info.type).1 = some created ∧
          entity.adapter = (neuAdapterStart (w.plugin node) created).adapter ∧
          after.manager.nodes.entries = s.manager.nodes.entries ++ [(node, entity)]) := by
  unfold neuManagerAddNode at ran
  cases found : s.plugins.find plugin with
  | none =>
    rw [found] at ran
    cases ran
    exact .inl ⟨rfl, .inl (by simp [hosts, found])⟩
  | some info =>
    rw [found] at ran
    simp only at ran
    split_ifs at ran with single taken library
    · cases ran
      exact .inl ⟨rfl, .inl (by simp [hosts, found, single])⟩
    · cases ran
      exact .inl ⟨rfl, .inr taken⟩
    · cases created : (neuAdapterCreate (w.plugin node) (esvPersisterLoadNodeConfig w.db node)
        node info.type).1 with
      | none =>
        rw [created] at ran
        cases ran
      | some adapter =>
        rw [created] at ran
        cases ran
        obtain ⟨named, -, -⟩ := created_named created
        have absent : s.manager.nodes.find adapter.name = none := named ▸ unknown_absent taken
        have behind := Table.entries_insert absent ⟨adapter, false, true, false⟩
        have there := find_add s.manager adapter adapter.name
        rw [if_pos rfl] at there
        rw [named] at behind there
        refine .inr ⟨by simp [hosts, found, single], by simpa using taken, rfl, info, adapter,
          ⟨(neuAdapterStart (w.plugin node) adapter).adapter, false, true, false⟩, rfl, created,
          rfl, ?_⟩
        refine started_last ⟨adapter, false, true, false⟩ ?_ there
        rw [nodes_called, neuNodeManagerAdd, named]
        exact behind

theorem mem_keys_known {manager : NeuManager} {name : CStr} :
    known manager name = true ↔ name ∈ manager.nodes.keys := by
  rw [known, neuNodeManagerFind, Option.isSome_map, Table.find_isSome]

end

section
variable {w : World} {opens : CStr → Bool} {s after : ManagerState} {rows : List (CStr × CStr)}

/-- A node that was created from its row and started. -/
def Booted (w : World) (plugins : Table CStr PluginEntity) (row : CStr × CStr)
    (node : CStr × NodeEntity) : Prop :=
  node.1 = row.1 ∧ ∃ info created, plugins.find row.2 = some info ∧
    (neuAdapterCreate (w.plugin row.1) (esvPersisterLoadNodeConfig w.db row.1) row.1
      info.type).1 = some created ∧
    node.2.adapter = (neuAdapterStart (w.plugin row.1) created).adapter

theorem keys_grown {plugins : Table CStr PluginEntity} {row : CStr × CStr} {node : CStr × NodeEntity}
    (booted : Booted w plugins row node)
    (grown : after.manager.nodes.entries = s.manager.nodes.entries ++ [node]) :
    after.manager.nodes.keys = s.manager.nodes.keys ++ [row.1] := by
  rw [Table.keys, grown, List.map_append, List.map_singleton, booted.1]
  rfl

/-- What the addition of a row does: a row that is new is booted behind the others. -/
theorem addNode_row {row : CStr × CStr} {rv : Int}
    (ran : neuManagerAddNode w opens s row.1 row.2 = some (after, rv)) :
    after.plugins = s.plugins ∧
      if hosts s.plugins row.2 ∧ row.1 ∉ s.manager.nodes.keys then
        ∃ node, Booted w s.plugins row node ∧
          after.manager.nodes.entries = s.manager.nodes.entries ++ [node]
      else after = s := by
  obtain ⟨rfl, idle⟩ | ⟨hosted, free, same, info, created, entity, found, made, started, grown⟩ :=
    addNode_cases ran
  · refine ⟨rfl, ?_⟩
    rw [if_neg]
    rintro ⟨hosted, unknown⟩
    apply unknown
    rw [← mem_keys_known]
    exact idle.resolve_left (by simp [hosted])
  · have unknown : row.1 ∉ s.manager.nodes.keys := by
      rw [← mem_keys_known, free]
      exact Bool.false_ne_true
    rw [if_pos ⟨hosted, unknown⟩]
    exact ⟨same, (row.1, entity), ⟨rfl, info, created, found, made, started⟩, grown⟩

/-- A loading that returns has added the nodes of these rows, in their order. -/
theorem loadNodes_rows (ran : esvManagerLoadNormalNode w opens s rows = some after) :
    after.plugins = s.plugins ∧ ∃ added,
      after.manager.nodes.entries = s.manager.nodes.entries ++ added ∧
      List.Forall₂ (Booted w s.plugins) (bootedRows s.plugins s.manager.nodes.keys rows) added := by
  induction rows generalizing s with
  | nil =>
    cases ran
    exact ⟨rfl, [], (List.append_nil _).symm, .nil⟩
  | cons row rest ih =>
    rw [esvManagerLoadNormalNode, List.foldlM_cons, Option.bind_eq_bind,
      Option.bind_eq_some_iff] at ran
    obtain ⟨next, first, further⟩ := ran
    obtain ⟨⟨next', rv⟩, added, rfl⟩ := Option.map_eq_some_iff.1 first
    obtain ⟨plugins, others, entries, booted⟩ := ih further
    obtain ⟨same, row_added⟩ := addNode_row added
    rw [same] at plugins booted
    rw [bootedRows]
    split_ifs at row_added ⊢ with new
    · obtain ⟨node, started, grown⟩ := row_added
      rw [keys_grown started grown] at booted
      rw [grown, List.append_assoc] at entries
      exact ⟨plugins, _, entries, .cons started booted⟩
    · cases row_added
      exact ⟨plugins, others, entries, booted⟩

def Creatable (plugins : Table CStr PluginEntity) : Prop :=
  ∀ plugin info, plugins.find plugin = some info → creatable info.type = true

theorem addNode_returns (types : Creatable s.plugins) (node plugin : CStr) :
    (neuManagerAddNode w opens s node plugin).isSome = true ↔
      (hosts s.plugins plugin ∧ node ∉ s.manager.nodes.keys →
        opens plugin = true ∧ (w.plugin node).init = 0) := by
  rw [addNode_some, Creates, ← mem_keys_known]
  cases found : s.plugins.find plugin with
  | none => simp [hosts, found]
  | some info =>
    have ready := types plugin info found
    by_cases single : info.single = true
    · simp [hosts, found, single]
    · have several : info.single = false := by simpa using single
      by_cases taken : known s.manager node = true <;>
        simp [hosts, found, several, taken, ready]

/-- Loading comes to its end exactly if every plugin that is opened for a row is one and its init
succeeds. -/
theorem loadNodes_returns (types : Creatable s.plugins) :
    (esvManagerLoadNormalNode w opens s rows).isSome = true ↔
      ∀ row ∈ bootedRows s.plugins s.manager.nodes.keys rows,
        opens row.2 = true ∧ (w.plugin row.1).init = 0 := by
  induction rows generalizing s with
  | nil => simp [esvManagerLoadNormalNode, bootedRows]
  | cons row rest ih =>
    have first : (neuManagerAddNode w opens s row.1 row.2).isSome = true ↔ _ :=
      addNode_returns types row.1 row.2
    rw [esvManagerLoadNormalNode, List.foldlM_cons, bootedRows]
    cases added : neuManagerAddNode w opens s row.1 row.2 with
    | none =>
      rw [added] at first
      obtain ⟨new, unfit⟩ := Classical.not_imp.1 fun fit => Bool.false_ne_true (first.2 fit)
      rw [if_pos new, List.forall_mem_cons]
      simp [unfit]
    | some next =>
      obtain ⟨after, rv⟩ := next
      have fit := first.1 (by rw [added]; rfl)
      obtain ⟨same, row_added⟩ := addNode_row added
      have tail := ih (s := after) (same ▸ types)
      rw [esvManagerLoadNormalNode, same] at tail
      simp only [Option.map_some, Option.bind_eq_bind, Option.bind_some, tail]
      split_ifs at row_added ⊢ with new
      · obtain ⟨node, started, grown⟩ := row_added
        rw [keys_grown started grown, List.forall_mem_cons]
        exact ⟨fun rest => ⟨fit new, rest⟩, And.right⟩
      · rw [row_added]

end

section
variable {dlopen : CStr → PluginLibrary} {t t' : Table CStr PluginCell}

def libraryPlugin (dlopen : CStr → PluginLibrary) (name lib : CStr) : Option PluginCell :=
  match checkedModule (dlopen (registeredPath lib)) with
  | .error _ => none
  | .ok pm => if pm.moduleName = name then some (.ofModule lib pm) else none

theorem pluginAdd_find {lib : CStr} {rv : Int} (ran : PluginMap.add dlopen t lib = some (t', rv))
    (name : CStr) : t'.find name = (t.find name).or (libraryPlugin dlopen name lib) := by
  unfold PluginMap.add at ran
  unfold libraryPlugin
  split_ifs at ran
  cases passed : checkedModule (dlopen (registeredPath lib)) with
  | error rv' =>
    rw [passed] at ran
    cases ran
    exact Option.or_none.symm
  | ok pm =>
    rw [passed] at ran
    simp only at ran ⊢
    split_ifs at ran with taken
    · cases ran
      by_cases own : pm.moduleName = name
      · subst own
        obtain ⟨c, found⟩ := Option.isSome_iff_exists.1 taken
        rw [found, Option.some_or]
      · simp [own]
    · cases ran
      rw [Table.find_insert]
      by_cases own : name = pm.moduleName
      · subst own
        have absent : t.find pm.moduleName = none := by simpa using taken
        simp [absent]
      · simp [own, Ne.symm own]

/-- Under every name stands the first library that registers it. -/
theorem loadPlugins_find {libs : List CStr}
    (ran : libs.foldlM (fun t lib => (PluginMap.add dlopen t lib).map Prod.fst) t = some t')
    (name : CStr) :
    t'.find name = (t.find name).or (libs.findSome? (libraryPlugin dlopen name)) := by
  induction libs generalizing t with
  | nil =>
    cases ran
    rw [List.findSome?_nil, Option.or_none]
  | cons lib rest ih =>
    rw [List.foldlM_cons, Option.bind_eq_bind, Option.bind_eq_some_iff] at ran
    obtain ⟨next, first, further⟩ := ran
    obtain ⟨⟨next', rv⟩, added, rfl⟩ := Option.map_eq_some_iff.1 first
    rw [ih further, pluginAdd_find added, Option.or_assoc, List.findSome?_cons]
    cases libraryPlugin dlopen name lib <;> rfl

theorem loadPlugins_returns (dlopen : CStr → PluginLibrary) (t : Table CStr PluginCell)
    {libs : List CStr} (short : ∀ lib ∈ libs, lib.strlen ≤ NEU_PLUGIN_LIBRARY_LEN) :
    ∃ t', libs.foldlM (fun t lib => (PluginMap.add dlopen t lib).map Prod.fst) t = some t' := by
  induction libs generalizing t with
  | nil => exact ⟨t, rfl⟩
  | cons lib rest ih =>
    obtain ⟨here, others⟩ := List.forall_mem_cons.1 short
    have one : ∃ added, PluginMap.add dlopen t lib = some added := by
      unfold PluginMap.add
      rw [if_pos here]
      split
      · exact ⟨_, rfl⟩
      · split <;> exact ⟨_, rfl⟩
    obtain ⟨added, first⟩ := one
    obtain ⟨t', ran⟩ := ih added.1 others
    exact ⟨t', by rw [List.foldlM_cons, first]; exact ran⟩

theorem libraryPlugin_passed {name lib : CStr} {c : PluginCell}
    (found : libraryPlugin dlopen name lib = some c) :
    ∃ pm, dlopen (registeredPath lib) = .module pm ∧ c = .ofModule lib pm := by
  unfold libraryPlugin at found
  split at found
  · cases found
  · next pm passed =>
    split_ifs at found
    cases found
    refine ⟨pm, ?_, rfl⟩
    generalize dlopen (registeredPath lib) = library at passed
    cases library with
    | unopened => cases passed
    | noModule => cases passed
    | module own =>
      simp only [checkedModule] at passed
      split_ifs at passed
      cases passed
      rfl

theorem default_path (lib : CStr) : instancePath (.lit "./plugins") lib = registeredPath lib := by
  unfold instancePath registeredPath
  apply congrArg (CStr.cut 254)
  apply congrArg CStr.read
  have dir : (CStr.lit "./plugins").chars = ['.', '/', 'p', 'l', 'u', 'g', 'i', 'n', 's'] := by
    decide
  have both : "%s/%s".toList = ['%', 's', '/', '%', 's'] := by decide
  have one : "./plugins/%s".toList =
      ['.', '/', 'p', 'l', 'u', 'g', 'i', 'n', 's', '/', '%', 's'] := by decide
  rw [both, one]
  simp [CStr.fill, dir]

theorem creatable_registered (c : PluginCell) : creatable c.nodeType = true := by
  unfold PluginCell.nodeType
  split
  · rfl
  · split <;> rfl

theorem infos_creatable (t : Table CStr PluginCell) : Creatable (t.map PluginCell.info) := by
  intro plugin info found
  rw [Table.find_map] at found
  obtain ⟨c, -, rfl⟩ := Option.map_eq_some_iff.1 found
  exact creatable_registered c

end

/-- Opening the library that registered the plugin, as the default directory does. -/
def opensRegistered (dlopen : CStr → PluginLibrary) (t : Table CStr PluginCell)
    (plugin : CStr) : Bool :=
  (t.find plugin).any fun c => (dlopen (registeredPath c.libName)).opensPlugin

theorem default_opens (dlopen : CStr → PluginLibrary) (t : Table CStr PluginCell) :
    instanceOpens dlopen (.lit "./plugins") t = opensRegistered dlopen t := by
  funext plugin
  unfold instanceOpens opensRegistered
  cases t.find plugin with
  | none => rfl
  | some c => simp only [default_path, Option.any_some]

end Cpm
