import Cpm.Core.Reply
import Cpm.Lib.Run

/-! The running state of every adapter against the calls its plugin has received, over all
orders of requests. -/
namespace Cpm

open Lib Lib.Run NeuManager

inductive LifecycleOp where
  | create (name : CStr) (moduleType : NeuNodeType)
  | start (node : CStr)
  | stop (node : CStr)
  | setSetting (node : CStr) (setting : CStr)
  | controlReload (msg : EsvThingModelMsg)
  | matterReload (msg : EsvThingModelMsg)

structure LifecycleRequest where
  world : World
  op : LifecycleOp

def serveNode (manager : NeuManager) (node : CStr) (request : NeuAdapter → Served) : NeuManager :=
  match manager.neuNodeManagerFind node with
  | none => manager
  | some adapter => manager.serve node (request adapter)

/-- A node name is given once; a failed creation leaves only its calls. -/
def createNode (w : World) (manager : NeuManager) (name : CStr) (moduleType : NeuNodeType) :
    NeuManager :=
  match manager.neuNodeManagerFind name with
  | some _ => manager
  | none =>
    let created := neuAdapterCreate (w.plugin name) (esvPersisterLoadNodeConfig w.db name) name
      moduleType
    match created.1 with
    | none => manager.called name created.2
    | some adapter => (manager.neuNodeManagerAdd adapter).called name created.2

def lifecycleStep (manager : NeuManager) (request : LifecycleRequest) : Option NeuManager :=
  let w := request.world
  match request.op with
  | .create name moduleType => some (createNode w manager name moduleType)
  | .start node => some (serveNode manager node (neuAdapterStart (w.plugin node)))
  | .stop node => some (serveNode manager node (neuAdapterStop (w.plugin node)))
  | .setSetting node setting =>
    some (serveNode manager node fun adapter =>
      neuAdapterSetSetting (w.plugin node) adapter setting)
  | .controlReload msg => (forwardThingControlMsgToEsvdriver w manager msg).map Prod.fst
  | .matterReload msg => (forwardThingModelMatterReloadMsgToEsvdriver w manager msg).map Prod.fst

def callOf (node : CStr) : Event → Option PluginCall
  | .plugin other call => if other = node then some call else none
  | .publish _ _ => none

def callsOf (manager : NeuManager) (node : CStr) : List PluginCall :=
  manager.trace.filterMap (callOf node)

def switch (on : Bool) : PluginCall → Bool
  | .start rv => if rv = 0 then true else on
  | .stop rv => if rv = 0 then false else on
  | .init _ | .setting _ _ | .thingModelMsgArrived _ _ => on

def started (calls : List PluginCall) : Bool := calls.foldl switch false

def NeverRestarted (calls : List PluginCall) : Prop :=
  ∀ before rv after, calls = before ++ .start rv :: after → started before = false

structure InStep (state : NeuNodeRunningState) (calls : List PluginCall) : Prop where
  running : state = .running ↔ started calls = true
  once : NeverRestarted calls

/-- The invariant: a node is running exactly when its plugin is started, and no started plugin
was started again. -/
structure Sound (manager : NeuManager) : Prop where
  running : ∀ node, started (callsOf manager node) = true ↔
    ∃ adapter, manager.neuNodeManagerFind node = some adapter ∧ adapter.state = .running
  once : ∀ node, NeverRestarted (callsOf manager node)

@[simp] theorem started_nil : started [] = false := rfl

@[simp] theorem started_snoc (calls : List PluginCall) (call : PluginCall) :
    started (calls ++ [call]) = switch (started calls) call := by
  simp [started]

theorem neverRestarted_nil : NeverRestarted [] := by
  intro before rv after split
  simp at split

/-- A further call is in order unless it starts a started plugin. -/
theorem neverRestarted_snoc {calls : List PluginCall} {call : PluginCall} :
    NeverRestarted (calls ++ [call]) ↔
      NeverRestarted calls ∧ ∀ rv, call = .start rv → started calls = false := by
  constructor
  · intro once
    refine ⟨fun before rv after split => ?_, ?_⟩
    · exact once before rv (after ++ [call]) (by simp [split])
    · rintro rv rfl
      exact once calls rv [] rfl
  · rintro ⟨once, last⟩ before rv after split
    rcases List.eq_nil_or_concat after with rfl | ⟨front, final, rfl⟩
    · obtain ⟨rfl, same⟩ := List.append_inj' split rfl
      exact last rv (List.cons.inj same).1
    · rw [List.concat_eq_append, ← List.cons_append, ← List.append_assoc] at split
      obtain ⟨rfl, -⟩ := List.append_inj' split rfl
      exact once before rv front rfl

theorem inStep_snoc {state : NeuNodeRunningState} {calls : List PluginCall} {call : PluginCall} :
    InStep state (calls ++ [call]) ↔
      (state = .running ↔ switch (started calls) call = true) ∧ NeverRestarted calls ∧
        ∀ rv, call = .start rv → started calls = false := by
  rw [← neverRestarted_snoc, ← started_snoc]
  exact ⟨fun h => ⟨h.running, h.once⟩, fun h => ⟨h.1, h.2⟩⟩

theorem InStep.stopped {state : NeuNodeRunningState} {calls : List PluginCall}
    (inStep : InStep state calls) (idle : state ≠ .running) : started calls = false := by
  rw [← Bool.not_eq_true, ← inStep.running]
  exact idle

theorem InStep.quiet {state : NeuNodeRunningState} {calls : List PluginCall} {call : PluginCall}
    (inStep : InStep state calls) (idle : ∀ on, switch on call = on)
    (other : ∀ rv, call ≠ .start rv) : InStep state (calls ++ [call]) :=
  inStep_snoc.mpr ⟨by rw [idle]; exact inStep.running, inStep.once,
    fun rv same => absurd same (other rv)⟩

theorem InStep.idle {state other : NeuNodeRunningState} {calls : List PluginCall}
    (inStep : InStep state calls) (idle : state ≠ .running) (still : other ≠ .running) :
    InStep other calls :=
  ⟨by simp [inStep.stopped idle, still], inStep.once⟩

theorem start_inStep (plugin : PluginReturns) (adapter : NeuAdapter) {calls : List PluginCall}
    (inStep : InStep adapter.state calls) :
    InStep (neuAdapterStart plugin adapter).adapter.state
      (calls ++ (neuAdapterStart plugin adapter).calls) := by
  have begun : adapter.state ≠ .running →
      InStep (if plugin.start = 0 then .running else adapter.state)
        (calls ++ [.start plugin.start]) := by
    intro idle
    have off := inStep.stopped idle
    rw [inStep_snoc]
    refine ⟨?_, inStep.once, fun _ _ => off⟩
    by_cases ok : plugin.start = 0 <;> simp [switch, ok, off, idle]
  unfold neuAdapterStart
  cases state : adapter.state with
  | init => simpa [state] using inStep
  | running => simpa [state] using inStep
  | ready =>
    have next := begun (by simp [state])
    by_cases ok : plugin.start = 0 <;> simpa [ok, state] using next
  | stopped =>
    have next := begun (by simp [state])
    by_cases ok : plugin.start = 0 <;> simpa [ok, state] using next

theorem stop_inStep (plugin : PluginReturns) (adapter : NeuAdapter) {calls : List PluginCall}
    (inStep : InStep adapter.state calls) :
    InStep (neuAdapterStop plugin adapter).adapter.state
      (calls ++ (neuAdapterStop plugin adapter).calls) := by
  have finish : InStep (if plugin.stop = 0 then .stopped else adapter.state)
      (calls ++ [.stop plugin.stop]) := by
    rw [inStep_snoc]
    refine ⟨?_, inStep.once, by simp⟩
    by_cases ok : plugin.stop = 0
    · simp [switch, ok]
    · simpa [switch, ok] using inStep.running
  unfold neuAdapterStop
  cases state : adapter.state with
  | init => simpa [state] using inStep
  | stopped => simpa [state] using inStep
  | ready => by_cases ok : plugin.stop = 0 <;> simpa [ok, state] using finish
  | running => by_cases ok : plugin.stop = 0 <;> simpa [ok, state] using finish

theorem setSetting_inStep (plugin : PluginReturns) (adapter : NeuAdapter) (setting : CStr)
    {calls : List PluginCall} (inStep : InStep adapter.state calls) :
    InStep (neuAdapterSetSetting plugin adapter setting).adapter.state
      (calls ++ (neuAdapterSetSetting plugin adapter setting).calls) := by
  have handed : InStep adapter.state (calls ++ [.setting setting (plugin.setting setting)]) :=
    inStep.quiet (fun _ => rfl) (by simp)
  unfold neuAdapterSetSetting
  by_cases ok : plugin.setting setting = 0
  · by_cases first : adapter.state = .init
    · have ready : InStep .ready (calls ++ [.setting setting (plugin.setting setting)]) :=
        handed.idle (by simp [first]) (by simp)
      have next := start_inStep plugin { adapter with setting := some setting, state := .ready }
        ready
      simpa [ok, first] using next
    · simpa [ok, first] using handed
  · simpa [ok] using handed

/-- What a reload needs to leave the adapter in step: a running plugin stops, and the start
succeeds exactly if the adapter was running and keeps its state. -/
structure ReloadInStep (plugin : PluginReturns) (config : Option CStr) (adapter : NeuAdapter) :
    Prop where
  stops : adapter.state = .running → plugin.stop = 0
  starts : plugin.start = 0 ↔ adapter.state = .running ∧ accepted plugin config = false

/-- A stop and a start behind it, whatever they return. -/
theorem restart_inStep_iff {before : NeuNodeRunningState} {calls stopped : List PluginCall}
    {stop : Int} (inStep : InStep before calls)
    (halted : started stopped = switch (started calls) (.stop stop))
    (once : NeverRestarted stopped) (after : NeuNodeRunningState) (start : Int) :
    InStep after (stopped ++ [.start start]) ↔
      (before = .running → stop = 0) ∧ (after = .running ↔ start = 0) := by
  have on : started calls = decide (before = .running) := by
    rw [Bool.eq_iff_iff, decide_eq_true_eq, inStep.running]
  rw [inStep_snoc, halted, on]
  by_cases running : before = .running <;> by_cases halt : stop = 0 <;>
    by_cases begun : start = 0 <;> simp [switch, running, halt, begun, once]

theorem reload_inStep_iff (plugin : PluginReturns) (config : Option CStr) (adapter : NeuAdapter)
    {calls : List PluginCall} (inStep : InStep adapter.state calls) :
    InStep (loadConfig plugin config adapter).1.state
      (calls ++ .stop plugin.stop ::
        ((loadConfig plugin config adapter).2 ++ [.start plugin.start])) ↔
    ReloadInStep plugin config adapter := by
  have halted : NeverRestarted (calls ++ [.stop plugin.stop]) :=
    neverRestarted_snoc.mpr ⟨inStep.once, by simp⟩
  have split : ∀ quiet, calls ++ .stop plugin.stop :: (quiet ++ [.start plugin.start]) =
      (calls ++ [.stop plugin.stop] ++ quiet) ++ [.start plugin.start] := by simp
  rw [split]
  cases config with
  | none =>
    have restart := restart_inStep_iff inStep (started_snoc _ _) halted adapter.state plugin.start
    simp only [loadConfig, List.append_nil, restart]
    constructor
    · exact fun h => ⟨h.1, by simp [accepted, h.2]⟩
    · exact fun h => ⟨h.stops, by simp [h.starts, accepted]⟩
  | some text =>
    have handed : NeverRestarted
        (calls ++ [.stop plugin.stop] ++ [.setting text (plugin.setting text)]) :=
      neverRestarted_snoc.mpr ⟨halted, by simp⟩
    have restart := restart_inStep_iff inStep
      ((started_snoc _ (.setting text (plugin.setting text))).trans (started_snoc _ _)) handed
    by_cases taken : plugin.setting text = 0
    · simp only [loadConfig, taken, if_true] at restart ⊢
      rw [restart]
      constructor
      · exact fun h => ⟨h.1, by simpa [accepted, taken] using h.2⟩
      · exact fun h => ⟨h.stops, by simpa [accepted, taken] using h.starts⟩
    · simp only [loadConfig, taken, if_false, restart]
      constructor
      · exact fun h => ⟨h.1, by simp [accepted, taken, h.2]⟩
      · exact fun h => ⟨h.stops, by simp [h.starts, accepted, taken]⟩

@[simp] theorem callsOf_record_publish (manager : NeuManager) (topic : CStr) (payload : PublishedMsg)
    (node : CStr) : callsOf (manager.record [.publish topic payload]) node = callsOf manager node := by
  simp [callsOf, callOf]

theorem callsOf_called (manager : NeuManager) (node : CStr) (calls : List PluginCall)
    (other : CStr) : callsOf (manager.called node calls) other =
      callsOf manager other ++ if other = node then calls else [] := by
  have own : (calls.map (.plugin node)).filterMap (callOf other) =
      if other = node then calls else [] := by
    rw [List.filterMap_map]
    by_cases same : other = node
    · simp [same, callOf]
    · simp [same, callOf, Ne.symm same]
  rw [callsOf, trace_called, List.filterMap_append, own, callsOf]

theorem callsOf_serve (manager : NeuManager) (node : CStr) (served : Served) (other : CStr) :
    callsOf (manager.serve node served) other =
      callsOf manager other ++ if other = node then served.calls else [] :=
  callsOf_called (manager.setAdapter node served.adapter) node served.calls other

theorem Sound.inStep {manager : NeuManager} (sound : Sound manager) {node : CStr}
    {adapter : NeuAdapter} (known : manager.neuNodeManagerFind node = some adapter) :
    InStep adapter.state (callsOf manager node) where
  running := by rw [sound.running, known]; simp
  once := sound.once node

theorem Sound.unknown {manager : NeuManager} (sound : Sound manager) {node : CStr}
    (unknown : manager.neuNodeManagerFind node = none) :
    started (callsOf manager node) = false := by
  rw [← Bool.not_eq_true, sound.running, unknown]
  simp

/-- Only one node was touched, and it is in step. -/
theorem sound_of_node {before after : NeuManager} {node : CStr} {adapter : NeuAdapter}
    (sound : Sound before)
    (find : ∀ other, other ≠ node →
      after.neuNodeManagerFind other = before.neuNodeManagerFind other)
    (calls : ∀ other, other ≠ node → callsOf after other = callsOf before other)
    (known : after.neuNodeManagerFind node = some adapter)
    (inStep : InStep adapter.state (callsOf after node)) : Sound after where
  running other := by
    by_cases here : other = node
    · subst here
      rw [← inStep.running, known]
      simp
    · rw [calls other here, find other here]
      exact sound.running other
  once other := by
    by_cases here : other = node
    · subst here
      exact inStep.once
    · rw [calls other here]
      exact sound.once other

theorem sound_serve {manager : NeuManager} {node : CStr} {adapter : NeuAdapter} {served : Served}
    (sound : Sound manager) (known : manager.neuNodeManagerFind node = some adapter)
    (inStep : InStep adapter.state (callsOf manager node) →
      InStep served.adapter.state (callsOf manager node ++ served.calls)) :
    Sound (manager.serve node served) := by
  have here : (manager.serve node served).neuNodeManagerFind node = some served.adapter := by
    rw [find_serve, if_pos rfl, known]
    rfl
  refine sound_of_node sound (fun other away => ?_) (fun other away => ?_) here ?_
  · rw [find_serve, if_neg away]
  · rw [callsOf_serve, if_neg away, List.append_nil]
  · rw [callsOf_serve, if_pos rfl]
    exact inStep (sound.inStep known)

theorem sound_publish {manager : NeuManager} (sound : Sound manager) (topic : CStr)
    (payload : PublishedMsg) : Sound (manager.record [.publish topic payload]) where
  running node := by rw [callsOf_record_publish, find_record]; exact sound.running node
  once node := by rw [callsOf_record_publish]; exact sound.once node

theorem sound_serveNode {manager : NeuManager} (sound : Sound manager) (node : CStr)
    (request : NeuAdapter → Served)
    (inStep : ∀ adapter calls, InStep adapter.state calls →
      InStep (request adapter).adapter.state (calls ++ (request adapter).calls)) :
    Sound (serveNode manager node request) := by
  unfold serveNode
  split
  · exact sound
  · next adapter known => exact sound_serve sound known (inStep adapter _)

theorem sound_called {manager : NeuManager} {node : CStr} {adapter : NeuAdapter}
    (sound : Sound manager) (known : manager.neuNodeManagerFind node = some adapter)
    {call : PluginCall} (inStep : InStep adapter.state (callsOf manager node) →
      InStep adapter.state (callsOf manager node ++ [call])) :
    Sound (manager.called node [call]) := by
  refine sound_of_node sound (fun _ _ => rfl) (fun other away => ?_) known ?_
  · rw [callsOf_called, if_neg away, List.append_nil]
  · rw [callsOf_called, if_pos rfl]
    exact inStep (sound.inStep known)

theorem sound_arrived {w : World} {manager : NeuManager} {node : CStr} {adapter : NeuAdapter}
    (sound : Sound manager) (known : manager.neuNodeManagerFind node = some adapter)
    (msg : EsvThingModelMsg) : Sound (arrived w manager node msg).1 :=
  sound_called sound known fun inStep => inStep.quiet (fun _ => rfl) (by simp)

theorem reloadConfig_serve (w : World) (manager : NeuManager) (node : CStr)
    (adapter : NeuAdapter) :
    reloadConfig w (stopPlugin w manager node) node adapter =
      manager.serve node
        ⟨(loadConfig (w.plugin node) (esvPersisterLoadNodeConfig w.db adapter.name) adapter).1,
          .stop (w.plugin node).stop ::
            ((loadConfig (w.plugin node) (esvPersisterLoadNodeConfig w.db adapter.name) adapter).2 ++
              [.start (w.plugin node).start]), (w.plugin node).start⟩ := by
  simp [reloadConfig, stopPlugin, serve, called, record, setAdapter]

theorem sound_reload {w : World} {manager : NeuManager} {node : CStr} {adapter : NeuAdapter}
    (sound : Sound manager) (known : manager.neuNodeManagerFind node = some adapter)
    (keeps : ReloadInStep (w.plugin node) (esvPersisterLoadNodeConfig w.db adapter.name) adapter) :
    Sound (reloadConfig w (stopPlugin w manager node) node adapter) := by
  rw [reloadConfig_serve]
  exact sound_serve sound known fun inStep =>
    (reload_inStep_iff (w.plugin node) _ adapter inStep).mpr keeps

def ControlTarget (w : World) (manager : NeuManager) (msg : EsvThingModelMsg) (node : CStr)
    (adapter : NeuAdapter) : Prop :=
  msg.method ≠ .wanSubthingThingPluginNodeActionPush ∧
    ((copyRecvMsg msg).bind fun recvMsg => esvPersisterQueryDeviceNodeNameByNodeId w.db
      (requestPluginNodeId (w.jsonLoads recvMsg))) = some (some node) ∧
    manager.neuNodeManagerFind node = some adapter

def MatterTarget (w : World) (manager : NeuManager) (msg : EsvThingModelMsg) (node : CStr)
    (adapter : NeuAdapter) : Prop :=
  requestConfigItem (w.jsonLoads (.read msg.msg)) = none ∧
    (copyPluginNodeId (requestPluginNodeId (w.jsonLoads (.read msg.msg)))).bind
      (fun id => esvPersisterQueryDeviceNodeNameByNodeId w.db (some id)) = some (some node) ∧
    manager.neuNodeManagerFind node = some adapter

/-- A reload is harmless when it leaves its adapter in step; the second path also when the
plugin does not stop, for then nothing else is done. -/
def LifecycleAllowed (manager : NeuManager) (request : LifecycleRequest) : Prop :=
  let w := request.world
  match request.op with
  | .controlReload msg => ∀ node adapter, ControlTarget w manager msg node adapter →
      ReloadInStep (w.plugin node) (esvPersisterLoadNodeConfig w.db adapter.name) adapter
  | .matterReload msg => ∀ node adapter, MatterTarget w manager msg node adapter →
      (w.plugin node).stop = 0 →
      ReloadInStep (w.plugin node) (esvPersisterLoadNodeConfig w.db adapter.name) adapter
  | .create _ _ | .start _ | .stop _ | .setSetting _ _ => True

theorem results_publish {w : World} {pk dn : Option CStr} {recvMsg : Option Json} {result : Int}
    {reply : Event} (sent : sendConfigPluginResults w pk dn recvMsg result = some reply) :
    ∃ topic payload, reply = .publish topic payload := by
  simp only [sendConfigPluginResults, Option.bind_eq_bind, Option.bind_eq_some_iff] at sent
  obtain ⟨_, _, _, _, _, _, _, _, made⟩ := sent
  cases made
  exact ⟨_, _, rfl⟩

theorem matter_results_publish {w : World} {recvMsg : Option Json} {result : Int} {reply : Event}
    (sent : sendConfigPluginResultsForMatter w recvMsg result = some reply) :
    ∃ topic payload, reply = .publish topic payload := by
  simp only [sendConfigPluginResultsForMatter, Option.bind_eq_bind, Option.bind_eq_some_iff] at sent
  obtain ⟨_, _, _, _, made⟩ := sent
  cases made
  exact ⟨_, _, rfl⟩

theorem sound_action {w : World} {manager after : NeuManager} {msg : EsvThingModelMsg} {rv : Int}
    (sound : Sound manager) (done : forwardAction w manager msg = some (after, rv)) :
    Sound after := by
  unfold forwardAction at done
  split at done
  · cases done
    exact sound
  · split at done
    · cases done
      exact sound
    · simp only [Option.bind_eq_bind, Option.bind_eq_some_iff] at done
      obtain ⟨name, -, done⟩ := done
      split at done
      · cases done
        exact sound
      · split at done
        · cases done
          exact sound
        · next adapter known =>
          have heard := sound_arrived (w := w) sound known msg
          split at done <;> cases done <;> exact heard

theorem sound_control {w : World} {manager after : NeuManager} {msg : EsvThingModelMsg} {rv : Int}
    (sound : Sound manager)
    (keeps : ∀ node adapter, ControlTarget w manager msg node adapter →
      ReloadInStep (w.plugin node) (esvPersisterLoadNodeConfig w.db adapter.name) adapter)
    (done : forwardThingControlMsgToEsvdriver w manager msg = some (after, rv)) : Sound after := by
  obtain ⟨recvMsg, copied, done⟩ := Option.bind_eq_some_iff.1 done
  split at done
  · exact sound_action sound done
  · next reload =>
    simp only [Option.bind_eq_bind, Option.bind_eq_some_iff] at done
    obtain ⟨name, row, node, rfl, done⟩ := done
    have target : ((copyRecvMsg msg).bind fun recvMsg =>
        esvPersisterQueryDeviceNodeNameByNodeId w.db
          (requestPluginNodeId (w.jsonLoads recvMsg))) = some (some node) := by
      rw [copied]
      exact row
    split at done
    · cases done
      exact sound
    · next adapter known =>
      simp only [Option.bind_eq_some_iff] at done
      obtain ⟨reply, sent, done⟩ := done
      cases done
      obtain ⟨topic, payload, rfl⟩ := results_publish sent
      exact sound_publish (sound_reload sound known (keeps node adapter ⟨reload, target, known⟩)) _ _

theorem sound_matter {w : World} {manager after : NeuManager} {msg : EsvThingModelMsg} {rv : Int}
    (sound : Sound manager)
    (keeps : ∀ node adapter, MatterTarget w manager msg node adapter → (w.plugin node).stop = 0 →
      ReloadInStep (w.plugin node) (esvPersisterLoadNodeConfig w.db adapter.name) adapter)
    (done : forwardThingModelMatterReloadMsgToEsvdriver w manager msg = some (after, rv)) :
    Sound after := by
  simp only [forwardThingModelMatterReloadMsgToEsvdriver, Option.bind_eq_bind,
    Option.bind_eq_some_iff] at done
  obtain ⟨id, copied, name, row, node, rfl, done⟩ := done
  split at done
  · cases done
    exact sound
  · next adapter known =>
    cases item : requestConfigItem (w.jsonLoads (.read msg.msg)) with
    | some item' =>
      rw [item] at done
      simp only at done
      split at done <;> cases done
      · exact sound_arrived sound known msg
      · exact sound
    | none =>
      rw [item] at done
      simp only [matterPluginNodeId, item] at done copied
      split at done
      · next fails =>
        cases done
        exact sound_called sound known fun inStep => inStep_snoc.mpr
          ⟨by simpa [switch, fails] using inStep.running, inStep.once, by simp⟩
      · next stops =>
        simp only [Option.bind_eq_some_iff] at done
        obtain ⟨reply, sent, done⟩ := done
        cases done
        obtain ⟨topic, payload, rfl⟩ := matter_results_publish sent
        have target : MatterTarget w manager msg node adapter :=
          ⟨item, by rw [copied]; exact row, known⟩
        exact sound_publish (sound_reload sound known (keeps node adapter target
          (not_not.mp stops))) _ _

/-- Creation calls init and perhaps setting, and never leaves a running adapter. -/
theorem create_inStep (plugin : PluginReturns) (config : Option CStr) (name : CStr)
    (moduleType : NeuNodeType) {calls : List PluginCall} (fresh : InStep .init calls) :
    InStep .init (calls ++ (neuAdapterCreate plugin config name moduleType).2) ∧
      ∀ adapter, (neuAdapterCreate plugin config name moduleType).1 = some adapter →
        adapter.name = name ∧ adapter.state ≠ .running := by
  have opened : InStep .init (calls ++ [.init plugin.init]) := fresh.quiet (fun _ => rfl) (by simp)
  have handed : ∀ text, InStep .init
      (calls ++ [.init plugin.init] ++ [.setting text (plugin.setting text)]) := fun text =>
    opened.quiet (fun _ => rfl) (by simp)
  unfold neuAdapterCreate
  by_cases made : creatable moduleType = true
  · cases config with
    | none =>
      refine ⟨by simpa [made, loadConfig] using opened, fun adapter created => ?_⟩
      by_cases ok : plugin.init = 0 <;> simp [made, loadConfig, ok] at created
      subst created
      simp
    | some text =>
      by_cases taken : plugin.setting text = 0
      · refine ⟨by simpa [made, loadConfig, taken] using handed text, fun adapter created => ?_⟩
        by_cases ok : plugin.init = 0 <;> simp [made, loadConfig, ok, taken] at created
        subst created
        simp
      · refine ⟨by simpa [made, loadConfig, taken] using handed text, fun adapter created => ?_⟩
        by_cases ok : plugin.init = 0 <;> simp [made, loadConfig, ok, taken] at created
        subst created
        simp
  · simpa [made] using fresh

theorem sound_create {w : World} {manager : NeuManager} (sound : Sound manager) (name : CStr)
    (moduleType : NeuNodeType) : Sound (createNode w manager name moduleType) := by
  unfold createNode
  split
  · exact sound
  · next unknown =>
    have fresh : InStep .init (callsOf manager name) :=
      ⟨by simp [sound.unknown unknown], sound.once name⟩
    obtain ⟨quiet, made⟩ := create_inStep (w.plugin name)
      (esvPersisterLoadNodeConfig w.db name) name moduleType fresh
    generalize neuAdapterCreate (w.plugin name) (esvPersisterLoadNodeConfig w.db name) name
      moduleType = created at quiet made ⊢
    obtain ⟨result, calls⟩ := created
    simp only at quiet made ⊢
    cases result with
    | none =>
      refine ⟨fun node => ?_, fun node => ?_⟩ <;> rw [callsOf_called]
      · by_cases here : node = name
        · rw [here, if_pos rfl, quiet.stopped (by simp)]
          simp [called, find_record, unknown]
        · rw [if_neg here, List.append_nil]
          exact sound.running node
      · by_cases here : node = name
        · rw [here, if_pos rfl]
          exact quiet.once
        · rw [if_neg here, List.append_nil]
          exact sound.once node
    | some adapter =>
      obtain ⟨named, idle⟩ := made adapter rfl
      have find : ∀ node, ((manager.neuNodeManagerAdd adapter).called name
          calls).neuNodeManagerFind node =
          if node = name then some adapter else manager.neuNodeManagerFind node := by
        intro node
        rw [called, find_record, find_add, named]
      have recorded : ∀ node, callsOf ((manager.neuNodeManagerAdd adapter).called name calls) node =
          callsOf manager node ++ if node = name then calls else [] :=
        callsOf_called (manager.neuNodeManagerAdd adapter) name calls
      refine sound_of_node sound (fun other away => ?_) (fun other away => ?_)
        ((find name).trans (if_pos rfl)) ?_
      · rw [find, if_neg away]
      · rw [recorded, if_neg away, List.append_nil]
      · rw [recorded, if_pos rfl]
        exact quiet.idle (by simp) idle

theorem sound_step (manager : NeuManager) (request : LifecycleRequest) (after : NeuManager)
    (sound : Sound manager) (allowed : LifecycleAllowed manager request)
    (done : lifecycleStep manager request = some after) : Sound after := by
  obtain ⟨w, op⟩ := request
  cases op with
  | create name moduleType =>
    cases done
    exact sound_create sound name moduleType
  | start node =>
    cases done
    exact sound_serveNode sound node _ fun adapter _ => start_inStep (w.plugin node) adapter
  | stop node =>
    cases done
    exact sound_serveNode sound node _ fun adapter _ => stop_inStep (w.plugin node) adapter
  | setSetting node setting =>
    cases done
    exact sound_serveNode sound node _ fun adapter _ =>
      setSetting_inStep (w.plugin node) adapter setting
  | controlReload msg =>
    obtain ⟨⟨after', rv⟩, run, rfl⟩ := Option.map_eq_some_iff.mp done
    exact sound_control sound allowed run
  | matterReload msg =>
    obtain ⟨⟨after', rv⟩, run, rfl⟩ := Option.map_eq_some_iff.mp done
    exact sound_matter sound allowed run

theorem sound_initial : Sound .initial where
  running node := by simp [callsOf, initial, neuNodeManagerFind]
  once node := neverRestarted_nil

/-- In every run whose reloads are harmless, every state and plugin stay in step. -/
theorem lifecycle_sound (requests : List LifecycleRequest) (after : NeuManager)
    (harmless : Along lifecycleStep LifecycleAllowed .initial requests)
    (ended : requests.foldlM lifecycleStep .initial = some after) : Sound after :=
  invariant_of_step sound_step sound_initial harmless ended

def creation : LifecycleRequest := ⟨houseWorld, .create (.lit "KNX") .esvdevicedriver⟩

def running : List LifecycleRequest := [creation, ⟨houseWorld, .start (.lit "KNX")⟩]

def reload : LifecycleRequest :=
  ⟨askedWorld (reloadRequest 0 "1"),
    .controlReload (controlRequest (.lit "gw") (.lit "one") terminatedPayload)⟩

/-- The same request, and a plugin that stops, turns the configuration down and starts again. -/
def refusedReload : LifecycleRequest :=
  { reload with world := { reload.world with plugin := fun _ => ⟨0, fun _ => 1, 0, 0, fun _ => 0⟩ } }

theorem refusedReload_allowed {created manager : NeuManager}
    (first : lifecycleStep .initial creation = some created)
    (second : lifecycleStep created ⟨houseWorld, .start (.lit "KNX")⟩ = some manager) :
    LifecycleAllowed manager refusedReload := by
  cases first
  cases second
  rintro node adapter ⟨-, row, known⟩
  cases row
  cases known
  exact ⟨fun _ => rfl, by decide⟩

/-- A running node whose new configuration is refused is running again. -/
theorem lifecycle_sound_running :
    ∃ after, [creation, ⟨houseWorld, .start (.lit "KNX")⟩, refusedReload].foldlM lifecycleStep
        .initial = some after ∧ Sound after :=
  ⟨_, rfl, lifecycle_sound [creation, ⟨houseWorld, .start (.lit "KNX")⟩, refusedReload] _
    ⟨trivial, fun _ first => ⟨trivial, fun _ second =>
      ⟨refusedReload_allowed first second, fun _ _ => trivial⟩⟩⟩ rfl⟩

/-- A successful reload of a running node leaves it started and not running. -/
theorem reload_not_sound :
    ¬ (∀ (requests : List LifecycleRequest) after,
        requests.foldlM lifecycleStep .initial = some after → Sound after) := by
  intro always
  have sound := always (running ++ [reload]) _ rfl
  obtain ⟨adapter, known, state⟩ := (sound.running (.lit "KNX")).mp (by decide)
  have ready : adapter.state = .ready := by
    cases known
    rfl
  rw [ready] at state
  contradiction

end Cpm
