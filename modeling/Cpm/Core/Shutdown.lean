import Cpm.Core.Boot
import Cpm.Core.NodeAgree

/-! What no message of the manager's socket undoes, and the wait of `neu_manager_destroy` for the
nodes to go. -/
namespace Cpm

open Lib NeuManager ManagerState

/-- A look of the waiting loop of `neu_manager_destroy`: it is left when `neu_node_manager_size`,
a `uint16_t`, is 0. -/
def destroyLeaves (s : ManagerState) : Bool := s.manager.nodes.values.length % 2 ^ 16 = 0

/-- The nodes of one state are those of another, perhaps with more behind them; each has the
type it had. -/
structure KeepsNodes (s after : ManagerState) : Prop where
  plugins : after.plugins = s.plugins
  names : s.manager.nodes.keys <+: after.manager.nodes.keys
  types : ∀ name a, s.manager.neuNodeManagerFind name = some a →
    ∃ b, after.manager.neuNodeManagerFind name = some b ∧ b.moduleType = a.moduleType

theorem keepsNodes_self (s : ManagerState) : KeepsNodes s s :=
  ⟨rfl, List.prefix_rfl, fun _ a found => ⟨a, found, rfl⟩⟩

theorem KeepsNodes.trans {s middle last : ManagerState} (first : KeepsNodes s middle)
    (second : KeepsNodes middle last) : KeepsNodes s last where
  plugins := second.plugins.trans first.plugins
  names := first.names.trans second.names
  types := by
    intro name a found
    obtain ⟨b, there, same⟩ := first.types name a found
    obtain ⟨c, ended, again⟩ := second.types name b there
    exact ⟨c, ended, again.trans same⟩

theorem neuAdapterStart_typed (plugin : PluginReturns) (adapter : NeuAdapter) :
    (neuAdapterStart plugin adapter).adapter.moduleType = adapter.moduleType := by
  unfold neuAdapterStart
  split
  · rfl
  · rfl
  · split <;> rfl
  · split <;> rfl

theorem neuAdapterStop_typed (plugin : PluginReturns) (adapter : NeuAdapter) :
    (neuAdapterStop plugin adapter).adapter.moduleType = adapter.moduleType := by
  unfold neuAdapterStop
  split
  · rfl
  · rfl
  · split <;> rfl
  · split <;> rfl

section
variable {w : World} {opens : CStr → Bool} {s after : ManagerState}

theorem keepsNodes_serveNode (s : ManagerState) (node : CStr) (request : NeuAdapter → Served)
    (typed : ∀ a, (request a).adapter.moduleType = a.moduleType) (facts : CStr → NodeFacts) :
    KeepsNodes s { s with manager := serveNode s.manager node request, facts } := by
  unfold serveNode
  split
  · exact ⟨rfl, List.prefix_rfl, fun _ a found => ⟨a, found, rfl⟩⟩
  · next adapter here =>
    refine ⟨rfl, ?_, fun name a found => ?_⟩
    · have same : (s.manager.serve node (request adapter)).nodes.keys = s.manager.nodes.keys :=
        Table.keys_modify ..
      exact same ▸ List.prefix_rfl
    · have served := find_serve s.manager node (request adapter) name
      split_ifs at served with own
      · subst own
        rw [here] at found served
        cases found
        exact ⟨_, served, typed adapter⟩
      · exact ⟨a, served.trans found, rfl⟩

theorem keepsNodes_addNode {node plugin : CStr} {rv : Int}
    (ran : neuManagerAddNode w opens s node plugin = some (after, rv)) : KeepsNodes s after := by
  obtain ⟨rfl, -⟩ | ⟨-, free, plugins, info, created, entity, -, -, -, entries⟩ :=
    addNode_cases ran
  · exact keepsNodes_self after
  · refine ⟨plugins, ?_, fun name a found => ?_⟩
    · rw [Table.keys, Table.keys, entries, List.map_append]
      exact List.prefix_append _ _
    · refine ⟨a, ?_, rfl⟩
      rw [neuNodeManagerFind] at found ⊢
      obtain ⟨e, there, rfl⟩ := Option.map_eq_some_iff.1 found
      rw [Table.find, entries, Table.findIn_append]
      rw [Table.find] at there
      rw [there]
      rfl

theorem keepsNodes_nodeInit (w : World) (s : ManagerState) (pipe : ℕ) (node : CStr)
    (state : NeuNodeRunningState) : KeepsNodes s (nodeInit w s pipe node state) := by
  unfold nodeInit
  split
  · cases state with
    | running => exact keepsNodes_serveNode s node _ (neuAdapterStart_typed _) _
    | stopped => exact keepsNodes_serveNode s node _ (neuAdapterStop_typed _) _
    | init | ready => exact ⟨rfl, List.prefix_rfl, fun _ a found => ⟨a, found, rfl⟩⟩
  · exact keepsNodes_self s

theorem keepsNodes_step {m : ℕ × ReqrespMsg} (stepped : managerStep w opens s m = some after) :
    KeepsNodes s after := by
  obtain ⟨pipe, ctx, sender, receiver, body⟩ := m
  obtain ⟨⟨after', sent⟩, ran, rfl⟩ := Option.map_eq_some_iff.1 stepped
  cases body with
  | reqNodeInit node state =>
    cases ran
    exact keepsNodes_nodeInit w s pipe node state
  | reqAddNode node plugin =>
    obtain ⟨added, created, same⟩ := Option.map_eq_some_iff.1 ran
    cases same
    exact keepsNodes_addNode created
  | reqGetPlugin | reqGetNode _ _ _ | reqGetNodesState | reqNodeCtlEvent _ _
  | respGetNodeSetting _ _ | respError _ =>
    cases ran
    exact keepsNodes_self s
  | reqGetNodeSetting _ | reqNodeCtl _ _ | reqNodeSetting _ _ =>
    simp only [managerLoop] at ran
    split at ran <;> cases ran <;> exact keepsNodes_self s
  | respGetPlugin _ | respGetNode _ | respGetNodesState _ => cases ran

end

/-- No run of messages removes a node, moves it or changes its type. So a manager with a node
never leaves the wait of its destruction, as long as it has fewer than 65536 of them. -/
theorem managerRun_keeps_nodes (w : World) (opens : CStr → Bool) (s : ManagerState)
    (msgs : List (ℕ × ReqrespMsg)) (after : ManagerState)
    (ran : msgs.foldlM (managerStep w opens) s = some after) :
    KeepsNodes s after ∧
      (s.manager.nodes.entries ≠ [] → after.manager.nodes.entries.length < 2 ^ 16 →
        destroyLeaves after = false) := by
  have keeps : KeepsNodes s after :=
    @Run.invariant_of_step _ _ _ _ (KeepsNodes s)
      (fun middle m last kept _ stepped => kept.trans (keepsNodes_step stepped)) _ _ _
      (keepsNodes_self s) (Run.along_trivial _ msgs) ran
  refine ⟨keeps, fun some few => ?_⟩
  have longer := keeps.names.length_le
  have one := List.length_pos_iff.2 some
  simp only [Table.keys, List.length_map] at longer
  simp only [destroyLeaves, Table.values, List.length_map, decide_eq_false_iff_not]
  rw [Nat.mod_eq_of_lt few]
  omega

def houseMessages : List (ℕ × ReqrespMsg) :=
  [(7, ⟨1, .lit "KNX", .lit "manager", .reqNodeInit (.lit "KNX") .running⟩),
    (3, ⟨2, .lit "rest", .lit "manager", .reqAddNode (.lit "modbus") (.lit "Modbus TCP")⟩),
    (3, ⟨3, .lit "rest", .lit "KNX", .reqNodeCtl (.lit "KNX") .stop⟩),
    (3, ⟨4, .lit "rest", .lit "manager", .reqGetNode 9 .empty .empty⟩)]

theorem managerRun_keeps_nodes_house :
    ∃ after, houseMessages.foldlM (managerStep houseWorld fun _ => true)
        { houseState with plugins := modbusPlugins } = some after ∧
      KeepsNodes { houseState with plugins := modbusPlugins } after ∧
      after.manager.nodes.entries.length = 4 ∧ destroyLeaves after = false :=
  ⟨_, rfl, (managerRun_keeps_nodes houseWorld (fun _ => true)
      { houseState with plugins := modbusPlugins } houseMessages _ rfl).1, rfl,
    (managerRun_keeps_nodes houseWorld (fun _ => true)
      { houseState with plugins := modbusPlugins } houseMessages _ rfl).2 (by decide) (by decide)⟩

end Cpm
