import Cpm.Core.Broadcast
import Cpm.Core.ManagerLoop

/-! Adding a node: a request that fails leaves the node table alone, one that succeeds adds one
node under a new name. -/
namespace Cpm

open Lib NeuManager ManagerState

/-- The ends of `neu_manager_add_node`. The assertions about the plugin's library stand before
the adapter is created. -/
inductive AddNodeEnd where
  | returned (after : ManagerState) (error : Int)
  | assertFailed
  | absentAdapter

def addNodeEnd (w : World) (opens : CStr → Bool) (s : ManagerState) (node plugin : CStr) :
    AddNodeEnd :=
  match neuManagerAddNode w opens s node plugin with
  | some (after, error) => .returned after error
  | none => if opens plugin then .absentAdapter else .assertFailed

/-- What is left of the node table. The names of a table differ from each other, so a name that
joins them is a new one. -/
def Atomic (s : ManagerState) (node : CStr) : AddNodeEnd → Prop
  | .returned after error =>
    (error ≠ 0 → after.manager.nodes = s.manager.nodes) ∧
      (error = 0 → ∃ entity, after.manager.nodes.entries = s.manager.nodes.entries ++ [(node, entity)])
  | .assertFailed => True
  | .absentAdapter => False

def AdapterMade (w : World) (opens : CStr → Bool) (s : ManagerState) (node plugin : CStr) : Prop :=
  ∀ info, s.plugins.find plugin = some info → info.single = false →
    known s.manager node = false → opens plugin = true →
      creatable info.type = true ∧ (w.plugin node).init = 0

theorem unknown_absent {manager : NeuManager} {node : CStr} (unknown : ¬ known manager node = true) :
    manager.nodes.find node = none := by
  simpa [known, neuNodeManagerFind] using unknown

theorem serveNode_last {manager : NeuManager} {es : List (CStr × NodeEntity)} {node : CStr}
    {entity : NodeEntity} (last : manager.nodes.entries = es ++ [(node, entity)])
    (request : NeuAdapter → Served) :
    ∃ entity', (serveNode manager node request).nodes.entries = es ++ [(node, entity')] := by
  unfold serveNode
  split
  · exact ⟨entity, last⟩
  · next adapter _ =>
    exact ⟨{ entity with adapter := (request adapter).adapter }, Table.entries_modify_last last _⟩

/-- The created adapter is registered under its name and started there. -/
theorem added_last {w : World} {manager : NeuManager} {config : Option CStr} {node : CStr}
    {type : NeuNodeType} {adapter : NeuAdapter} (calls : List PluginCall)
    (unknown : ¬ known manager node = true)
    (created : (neuAdapterCreate (w.plugin node) config node type).1 = some adapter) :
    ∃ entity, (serveNode ((manager.neuNodeManagerAdd adapter).called node calls) node
      (neuAdapterStart (w.plugin node))).nodes.entries = manager.nodes.entries ++ [(node, entity)] := by
  obtain ⟨named, _, _⟩ := created_named created
  have absent : manager.nodes.find adapter.name = none := named ▸ unknown_absent unknown
  have entries := Table.entries_insert absent ⟨adapter, false, true, false⟩
  rw [named] at entries
  apply serveNode_last
  rw [nodes_called, neuNodeManagerAdd, named]
  exact entries

theorem addNode_atomic_iff (w : World) (opens : CStr → Bool) (s : ManagerState)
    (node plugin : CStr) :
    Atomic s node (addNodeEnd w opens s node plugin) ↔ AdapterMade w opens s node plugin := by
  have made := created_adapter (w.plugin node) (esvPersisterLoadNodeConfig w.db node) node
  unfold addNodeEnd neuManagerAddNode AdapterMade
  cases found : s.plugins.find plugin with
  | none => simp [Atomic, NEU_ERR_LIBRARY_NOT_FOUND]
  | some info =>
    by_cases single : info.single = true
    · simp [single, Atomic, NEU_ERR_LIBRARY_NOT_ALLOW_CREATE_INSTANCE]
    by_cases taken : known s.manager node = true
    · simp [single, taken, Atomic, NEU_ERR_NODE_EXIST]
    by_cases library : opens plugin = true
    · have both := made info.type
      cases created : (neuAdapterCreate (w.plugin node) (esvPersisterLoadNodeConfig w.db node)
        node info.type).1 with
      | none =>
        rw [created] at both
        simpa [single, taken, library, created, Atomic] using both
      | some adapter =>
        rw [created] at both
        have added := added_last (neuAdapterCreate (w.plugin node)
          (esvPersisterLoadNodeConfig w.db node) node info.type).2 taken created
        simpa [single, taken, library, created, Atomic, NEU_ERR_SUCCESS, both.1 rfl] using added
    · simp [single, taken, library, Atomic]

def failingWorld : World :=
  { houseWorld with plugin := fun _ => ⟨1, fun _ => 0, 0, 0, fun _ => 0⟩ }

def modbusPlugins : Table CStr PluginEntity :=
  Table.empty.insert (.lit "Modbus TCP") ⟨.esvdevicedriver, false, true⟩

theorem absent_adapter_named :
    ¬ Atomic ⟨.initial, modbusPlugins, fun _ => ⟨0, .empty, 0, 0⟩⟩ (.lit "modbus")
      (addNodeEnd failingWorld (fun _ => true)
        ⟨.initial, modbusPlugins, fun _ => ⟨0, .empty, 0, 0⟩⟩ (.lit "modbus") (.lit "Modbus TCP")) := by
  intro atomic
  exact atomic

end Cpm
