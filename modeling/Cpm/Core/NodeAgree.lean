import Cpm.Core.AddNode
import Cpm.Core.NodeTable

/-! Runs of the manager over its socket, on the node table of `node_manager.c`: what the
requests read there, and the nodes that stay. -/
namespace Cpm

open Lib NeuManager ManagerState

/-- The manager's messages, each with the pipe it came from. Link states, round-trip times and what
the plugins and the database answer stay as they are over a run. -/
def managerStep (w : World) (opens : CStr → Bool) (s : ManagerState) (m : Nat × ReqrespMsg) :
    Option ManagerState :=
  (managerLoop w opens s m.1 m.2).map Prod.fst

/-- The map holds the nodes of the manager with what is known of them, and every adapter has
the name of its node. -/
structure Describes (t : Table CStr NodeCell) (s : ManagerState) : Prop where
  nodes : s.manager.nodes.entries = t.entries.map fun e => (e.1, e.2.entity)
  facts : ∀ name c, t.find name = some c → s.facts name = c.facts
  adapters : ∀ name c, t.find name = some c → c.entity.adapter.name = name

section
variable {t : Table CStr NodeCell} {s : ManagerState}

theorem Describes.find (describes : Describes t s) (name : CStr) :
    s.manager.nodes.find name = (t.find name).map NodeCell.entity := by
  rw [Table.find, describes.nodes, Table.findIn_map]
  rfl

theorem Describes.adapter (describes : Describes t s) (name : CStr) :
    s.manager.neuNodeManagerFind name = (t.find name).map fun c => c.entity.adapter := by
  rw [neuNodeManagerFind, describes.find, Option.map_map]
  rfl

theorem Describes.known (describes : Describes t s) (name : CStr) :
    known s.manager name = (t.find name).isSome := by
  rw [Cpm.known, describes.adapter, Option.isSome_map]

theorem Describes.of_find {other : Table CStr NodeCell} {after : ManagerState}
    (nodes : after.manager.nodes.entries = other.entries.map fun e => (e.1, e.2.entity))
    (each : ∀ name c, other.find name = some c →
      after.facts name = c.facts ∧ c.entity.adapter.name = name) : Describes other after :=
  ⟨nodes, fun name c found => (each name c found).1, fun name c found => (each name c found).2⟩

theorem Describes.serveNode (describes : Describes t s) (node : CStr)
    (request : NeuAdapter → Served) (named : ∀ a, (request a).adapter.name = a.name) :
    ∃ calls t' seen, Run.observe NodeMap.step t calls = some (t', seen) ∧
      Describes t' { s with manager := serveNode s.manager node request } := by
  cases found : t.find node with
  | none =>
    have unknown : s.manager.neuNodeManagerFind node = none := by rw [describes.adapter, found]; rfl
    refine ⟨[], t, [], rfl, ?_⟩
    rw [Cpm.serveNode, unknown]
    exact describes
  | some cell =>
    have here : s.manager.neuNodeManagerFind node = some cell.entity.adapter := by
      rw [describes.adapter, found]; rfl
    refine ⟨[.adapterChanged node (request cell.entity.adapter).adapter], _, _, rfl, ?_⟩
    rw [Cpm.serveNode, here]
    apply Describes.of_find
    · have changed : (s.manager.serve node (request cell.entity.adapter)).nodes.entries =
          s.manager.nodes.entries.map fun e =>
            if e.1 = node then (e.1, { e.2 with adapter := (request cell.entity.adapter).adapter })
            else e := rfl
      rw [changed, describes.nodes, Table.entries_modify, List.map_map, List.map_map]
      apply List.map_congr_left
      intro e _
      by_cases own : e.1 = node <;> simp [own, NeuNodeManager.setAdapter]
    · intro name c now
      rw [Table.find_modify] at now
      split at now
      · next own =>
        subst own
        rw [found, Option.map_some] at now
        cases now
        exact ⟨describes.facts name cell found, (named _).trans (describes.adapters name cell found)⟩
      · exact ⟨describes.facts _ _ now, describes.adapters _ _ now⟩

theorem Describes.bound (describes : Describes t s) (node : CStr) (pipe : ℕ) :
    Describes (t.modify node (NeuNodeManager.setPipe pipe))
      { s with
        facts := fun name => if name = node then { s.facts name with pipe } else s.facts name } := by
  apply Describes.of_find
  · rw [describes.nodes, Table.entries_modify, List.map_map]
    apply List.map_congr_left
    intro e _
    by_cases own : e.1 = node <;> simp [own, NeuNodeManager.setPipe]
  · intro name c now
    rw [Table.find_modify] at now
    split at now
    · next own =>
      obtain ⟨old, before, rfl⟩ := Option.map_eq_some_iff.1 now
      refine ⟨(if_pos own).trans ?_, describes.adapters name old before⟩
      rw [describes.facts name old before]
      rfl
    · next other =>
      exact ⟨(if_neg other).trans (describes.facts _ _ now), describes.adapters _ _ now⟩

theorem Describes.added (describes : Describes t s) {node : CStr} {adapter : NeuAdapter}
    (absent : t.find node = none) (named : adapter.name = node) (calls : List PluginCall)
    (facts : NodeFacts) (unbound : facts.pipe = 0) :
    Describes (t.insert node (.fresh ⟨adapter, false, true, false⟩ facts))
      { s with
        manager := (s.manager.neuNodeManagerAdd adapter).called node calls
        facts := fun name => if name = node then facts else s.facts name } := by
  have missing : s.manager.nodes.find adapter.name = none := by
    rw [describes.find, named, absent, Option.map_none]
  apply Describes.of_find
  · have inserted := Table.entries_insert missing ⟨adapter, false, true, false⟩
    rw [describes.nodes, named] at inserted
    rw [Table.entries_insert absent, List.map_append]
    rw [nodes_called, neuNodeManagerAdd, named]
    exact inserted
  · intro name c now
    obtain ⟨rfl, rfl⟩ | ⟨other, old⟩ := Table.find_insert_some now
    · refine ⟨(if_pos rfl).trans ?_, named⟩
      rw [NodeCell.fresh, ← unbound]
    · exact ⟨(if_neg other).trans (describes.facts _ _ old), describes.adapters _ _ old⟩

theorem neuAdapterStart_named (plugin : PluginReturns) (adapter : NeuAdapter) :
    (neuAdapterStart plugin adapter).adapter.name = adapter.name := by
  unfold neuAdapterStart
  split
  · rfl
  · rfl
  · split <;> rfl
  · split <;> rfl

theorem neuAdapterStop_named (plugin : PluginReturns) (adapter : NeuAdapter) :
    (neuAdapterStop plugin adapter).adapter.name = adapter.name := by
  unfold neuAdapterStop
  split
  · rfl
  · rfl
  · split <;> rfl
  · split <;> rfl

/-- Some calls of the node manager take its map to one that describes the state afterwards. -/
def Followed (t : Table CStr NodeCell) (after : ManagerState) : Prop :=
  ∃ calls t' seen, Run.observe NodeMap.step t calls = some (t', seen) ∧ Describes t' after

theorem Describes.followed (describes : Describes t s) : Followed t s :=
  ⟨[], t, [], rfl, describes⟩

theorem Followed.after_call (call : NodeCall) {t₁ : Table CStr NodeCell} {seen : NodeAnswer}
    {after : ManagerState} (stepped : NodeMap.step t call = some (t₁, seen))
    (followed : Followed t₁ after) : Followed t after := by
  obtain ⟨calls, t', answers, ran, describes⟩ := followed
  exact ⟨call :: calls, t', seen :: answers, by simp [Run.observe, stepped, ran], describes⟩

theorem Describes.addNode (describes : Describes t s) {w : World} {opens : CStr → Bool}
    {node plugin : CStr} {after : ManagerState} {error : Int}
    (ran : neuManagerAddNode w opens s node plugin = some (after, error)) : Followed t after := by
  unfold neuManagerAddNode at ran
  split at ran
  · cases ran
    exact describes.followed
  · next info _ =>
    split_ifs at ran with single taken library
    · cases ran
      exact describes.followed
    · cases ran
      exact describes.followed
    · dsimp only at ran
      split at ran
      · cases ran
      · next adapter created =>
        cases ran
        have absent : t.find node = none := by
          simpa [describes.known] using taken
        obtain ⟨named, -, -⟩ := created_named created
        have added := describes.added absent named
          (neuAdapterCreate (w.plugin node) (esvPersisterLoadNodeConfig w.db node) node info.type).2
          ⟨0, plugin, 0, 0⟩ rfl
        have stepped : NodeMap.step t (.add adapter ⟨0, plugin, 0, 0⟩) =
            some (t.insert node (.fresh ⟨adapter, false, true, false⟩ ⟨0, plugin, 0, 0⟩), .code 0) := by
          simp [NodeMap.step, NodeMap.added, named, absent]
        exact .after_call _ stepped (added.serveNode node (neuAdapterStart (w.plugin node))
          (neuAdapterStart_named (w.plugin node)))

theorem Describes.nodeInit (describes : Describes t s) (w : World) (pipe : ℕ) (node : CStr)
    (state : NeuNodeRunningState) : Followed t (nodeInit w s pipe node state) := by
  unfold ManagerState.nodeInit
  split
  · have bound := describes.bound node pipe
    have stepped : NodeMap.step t (.update node pipe) =
      some (t.modify node (NeuNodeManager.setPipe pipe),
        .code (if (t.find node).isSome then 0 else -1)) := rfl
    cases state with
    | running =>
      exact .after_call _ stepped (bound.serveNode node (neuAdapterStart (w.plugin node))
        (neuAdapterStart_named (w.plugin node)))
    | stopped =>
      exact .after_call _ stepped (bound.serveNode node (neuAdapterStop (w.plugin node))
        (neuAdapterStop_named (w.plugin node)))
    | init | ready => exact .after_call _ stepped bound.followed
  · exact describes.followed

theorem Describes.step (describes : Describes t s) {w : World} {opens : CStr → Bool}
    {m : ℕ × ReqrespMsg} {after : ManagerState} (stepped : managerStep w opens s m = some after) :
    Followed t after := by
  obtain ⟨pipe, ctx, sender, receiver, body⟩ := m
  obtain ⟨⟨after', sent⟩, ran, rfl⟩ := Option.map_eq_some_iff.1 stepped
  cases body with
  | reqNodeInit node state =>
    cases ran
    exact describes.nodeInit w pipe node state
  | reqAddNode node plugin =>
    obtain ⟨added, created, same⟩ := Option.map_eq_some_iff.1 ran
    cases same
    exact describes.addNode created
  | reqGetPlugin | reqGetNode _ _ _ | reqGetNodesState | reqNodeCtlEvent _ _
  | respGetNodeSetting _ _ | respError _ =>
    cases ran
    exact describes.followed
  | reqGetNodeSetting _ | reqNodeCtl _ _ | reqNodeSetting _ _ =>
    simp only [managerLoop] at ran
    split at ran <;> cases ran <;> exact describes.followed
  | respGetPlugin _ | respGetNode _ | respGetNodesState _ => cases ran

theorem Describes.shown (describes : Describes t s) :
    s.shown = (t.values.filter NodeCell.shown).map fun c => c.entity.adapter := by
  rw [ManagerState.shown, describes.nodes, Table.values, List.filter_map, List.filter_map,
    List.map_map, List.map_map]
  rfl

/-- Every cell that is listed is found under its adapter's name. -/
theorem Describes.listed (describes : Describes t s) {c : NodeCell} (member : c ∈ t.values) :
    s.facts c.entity.adapter.name = c.facts := by
  obtain ⟨name, found⟩ := Table.mem_values.1 member
  rw [describes.adapters name c found, describes.facts name c found]

/-- The node manager reads what the requests of the manager see. -/
theorem Describes.reads (describes : Describes t s) {hash : CStr → ℕ} {mgr : NeuNodeManager}
    (holds : HoldsNodes hash mgr t) :
    (∀ name, mgr.read hash (.find name) = .adapter (s.manager.neuNodeManagerFind name)) ∧
      (∀ name, mgr.read hash (.getPipe name) = .pipe (s.neuNodeManagerGetPipe name)) ∧
      mgr.read hash .getState = .states s.neuNodeManagerGetState ∧
      ∀ type plugin node, mgr.read hash (.filter type plugin node) =
        .infos ((s.neuNodeManagerFilter type plugin node).map fun i => ⟨i.1, i.2⟩) := by
  refine ⟨fun name => ?_, fun name => ?_, ?_, fun type plugin node => ?_⟩
  · rw [holds.read, describes.adapter]
    rfl
  · rw [holds.read, neuNodeManagerGetPipe, describes.known]
    cases found : t.find name with
    | none => simp [NodeRead.answer, found]
    | some c => simp [NodeRead.answer, found, describes.facts name c found]
  · rw [holds.read, neuNodeManagerGetState, describes.shown, List.map_map]
    apply congrArg NodeAnswer.states
    apply List.map_congr_left
    intro c member
    have facts := describes.listed (List.mem_of_mem_filter member)
    simp only [Function.comp_apply, NodeCell.state, facts]
  · rw [holds.read, neuNodeManagerFilter, describes.shown, List.filter_map, List.map_map,
      List.map_map, List.filter_filter]
    apply congrArg NodeAnswer.infos
    have kept : ∀ c ∈ t.values, (c.shown && c.hasType type && c.filtered plugin node) =
        (((fun adapter : NeuAdapter => decide (adapter.moduleType.code &&& type ≠ 0) &&
          (decide (plugin.chars = []) || decide ((s.facts adapter.name).moduleName = plugin)) &&
          (decide (node.chars = []) || decide (node.chars <:+: adapter.name.chars))) ∘
            fun c => c.entity.adapter) c && c.shown) := by
      intro c member
      simp only [Function.comp_apply, describes.listed member, NodeCell.hasType, NodeCell.filtered]
      cases c.shown <;> simp [Bool.and_assoc]
    rw [List.filter_congr kept]
    apply List.map_congr_left
    intro c member
    have facts := describes.listed (List.mem_of_mem_filter member)
    simp only [Function.comp_apply, NodeCell.info, facts]

theorem Followed.step {w : World} {opens : CStr → Bool} {m : ℕ × ReqrespMsg}
    {after : ManagerState} (followed : Followed t s) (stepped : managerStep w opens s m = some after) :
    Followed t after := by
  obtain ⟨calls, middle, seen, ran, describes⟩ := followed
  obtain ⟨more, t', answers, further, ended⟩ := describes.step stepped
  exact ⟨calls ++ more, t', seen ++ answers, Run.observe_append ran further, ended⟩

end

/-- In every run of the manager, calls of `node_manager.c` on a table of `uthash.h` lead to
exactly the nodes, pipes, lists and states that its requests see. -/
theorem managerRun_reads (hash : CStr → ℕ) (calloc : Calloc) (cells : ℕ → NodeCell) (w : World)
    (opens : CStr → Bool) (plugins : Table CStr PluginEntity) (facts : CStr → NodeFacts)
    (msgs : List (ℕ × ReqrespMsg)) (s : ManagerState)
    (ran : msgs.foldlM (managerStep w opens) ⟨.initial, plugins, facts⟩ = some s) :
    ∃ calls mgr seen,
      Run.observe (NeuNodeManager.step hash calloc) (.create cells) calls = some (mgr, seen) ∧
      (∀ name, mgr.read hash (.find name) = .adapter (s.manager.neuNodeManagerFind name)) ∧
      (∀ name, mgr.read hash (.getPipe name) = .pipe (s.neuNodeManagerGetPipe name)) ∧
      mgr.read hash .getState = .states s.neuNodeManagerGetState ∧
      ∀ type plugin node, mgr.read hash (.filter type plugin node) =
        .infos ((s.neuNodeManagerFilter type plugin node).map fun i => ⟨i.1, i.2⟩) := by
  have start : Describes .empty ⟨.initial, plugins, facts⟩ := by
    constructor
    · rfl
    · intro name c found
      cases found
    · intro name c found
      cases found
  obtain ⟨calls, t, seen, followed, describes⟩ :=
    @Run.invariant_of_step _ _ _ _ (Followed .empty)
      (fun s m after followed _ stepped => followed.step stepped) _ _ _ start.followed
      (Run.along_trivial _ msgs) ran
  obtain ⟨mgr, observed, holds⟩ := nodeRun_holds cells followed
  exact ⟨calls, mgr, seen, observed, describes.reads holds⟩

def announcedRun : List (ℕ × ReqrespMsg) :=
  [(0, nodeRequest (.reqAddNode (.lit "modbus") (.lit "Modbus TCP"))),
    (7, nodeRequest (.reqNodeInit (.lit "modbus") .running))]

theorem managerRun_reads_announced :
    ∃ calls mgr seen, Run.observe (NeuNodeManager.step CStr.strlen callocAbove)
        (.create fun _ => .fresh ⟨adapterOf "" .driver, false, false, false⟩ noFacts) calls =
          some (mgr, seen) ∧
      mgr.read CStr.strlen (.getPipe (.lit "modbus")) = .pipe 7 := by
  obtain ⟨calls, mgr, seen, observed, -, pipes, -⟩ :=
    managerRun_reads CStr.strlen callocAbove
      (fun _ => .fresh ⟨adapterOf "" .driver, false, false, false⟩ noFacts) houseWorld
      (fun _ => true) modbusPlugins (fun _ => noFacts) announcedRun _ rfl
  exact ⟨calls, mgr, seen, observed, pipes (.lit "modbus")⟩

end Cpm
