import Cpm.Core.Lifecycle
import Cpm.Core.Routing

/-! The forwarding functions that send to every adapter of one type. They ask the node table once
and keep its answer. -/
namespace Cpm

open Lib Lib.Run NeuManager

inductive BroadcastOp where
  | create (w : World) (name : CStr) (moduleType : NeuNodeType)
  | toAllEsvdevicedriver (w : World) (msg : EsvThingModelMsg)
  | toEsvapps (w : World) (msg : EsvThingModelMsg)

def broadcastStep (manager : NeuManager) : BroadcastOp → Option NeuManager
  | .create w name moduleType => some (createNode w manager name moduleType)
  | .toAllEsvdevicedriver w msg => some (forwardThingModelMsgToAllEsvdevicedriver w manager msg).1
  | .toEsvapps w msg => some (forwardThingModelMsgToEsvapps w manager msg).1

/-- The message went once to every displayed adapter of the type and to nobody else; the driver
functions set the plugin id in it. -/
structure DeliveredTo (type : NeuNodeType) (before after : NeuManager) (msg : EsvThingModelMsg) :
    Prop where
  once : (recipients before after).Nodup
  adapters : ∀ node, node ∈ recipients before after ↔ ∃ e, before.nodes.find node = some e ∧
    e.display = true ∧ e.adapter.moduleType = type
  same : ∀ event ∈ newEvents before after, ∃ node rv id,
    event = .plugin node (.thingModelMsgArrived { msg with pluginId := id } rv)

/- What one call does. -/

/-- The state after a call that sends `sent node` to each of the nodes. -/
structure Sends (w : World) (before after : NeuManager) (nodes : List CStr)
    (sent : CStr → EsvThingModelMsg) : Prop where
  table : after.nodes = before.nodes
  trace : after.trace = before.trace ++ nodes.map fun node =>
    .plugin node (.thingModelMsgArrived (sent node) ((w.plugin node).thingModelMsgArrived
      (sent node)))

theorem appLoop_sends (w : World) (msg : EsvThingModelMsg) (nodes : List CStr)
    (manager : NeuManager) :
    let after := nodes.foldl (fun manager node => (arrived w manager node msg).1) manager
    Sends w manager after nodes (fun _ => msg) ∧
      after.esvdevicedrivernodes = manager.esvdevicedrivernodes ∧
      after.esvappnodes = manager.esvappnodes := by
  induction nodes generalizing manager with
  | nil => exact ⟨⟨rfl, (List.append_nil _).symm⟩, rfl, rfl⟩
  | cons node rest ih =>
    obtain ⟨⟨table, trace⟩, drivers, apps⟩ := ih (arrived w manager node msg).1
    refine ⟨⟨table, ?_⟩, drivers, apps⟩
    rw [List.foldl_cons, trace, arrived, trace_called, List.append_assoc]
    rfl

theorem driverLoop_sends (w : World) (base : EsvThingModelMsg) (nodes : List CStr)
    (manager : NeuManager) (id : Int) :
    let after := nodes.foldl (fun (sent : NeuManager × EsvThingModelMsg) node =>
      ((arrived w sent.1 node (withPluginId w node sent.2)).1, withPluginId w node sent.2))
      (manager, { base with pluginId := id })
    Sends w manager after.1 nodes (fun node => withPluginId w node base) ∧
      after.1.esvdevicedrivernodes = manager.esvdevicedrivernodes ∧
      after.1.esvappnodes = manager.esvappnodes := by
  induction nodes generalizing manager id with
  | nil => exact ⟨⟨rfl, (List.append_nil _).symm⟩, rfl, rfl⟩
  | cons node rest ih =>
    obtain ⟨⟨table, trace⟩, drivers, apps⟩ :=
      ih (arrived w manager node (withPluginId w node base)).1 (selectPluginNode w.db w.selectOther node).atoi
    refine ⟨⟨table, ?_⟩, drivers, apps⟩
    calc
      _ = (arrived w manager node (withPluginId w node base)).1.trace ++ _ := trace
      _ = _ := by
        rw [arrived, trace_called, List.append_assoc]
        rfl

theorem mem_getAdapter {manager : NeuManager} {type : NeuNodeType} {node : CStr} :
    node ∈ manager.neuNodeManagerGetAdapter type ↔ ∃ e, manager.nodes.find node = some e ∧
      e.isStatic = false ∧ e.display = true ∧ e.adapter.moduleType = type := by
  simp only [neuNodeManagerGetAdapter, List.mem_map, List.mem_filter, Table.find_eq_some,
    Bool.and_eq_true, Bool.not_eq_true', decide_eq_true_eq, Prod.exists, and_assoc]
  constructor
  · rintro ⟨name, e, inside, static, display, type, rfl⟩
    exact ⟨e, inside, static, display, type⟩
  · rintro ⟨e, inside, static, display, type⟩
    exact ⟨node, e, inside, static, display, type, rfl⟩

theorem getAdapter_nodup (manager : NeuManager) (type : NeuNodeType) :
    (manager.neuNodeManagerGetAdapter type).Nodup :=
  manager.nodes.nodup.sublist (List.filter_sublist.map _)

def Displayed (manager : NeuManager) : Prop :=
  ∀ node e, manager.nodes.find node = some e → e.isStatic = false ∧ e.display = true

theorem delivered_of_sends {w : World} {before after : NeuManager} {type : NeuNodeType}
    {sent : CStr → EsvThingModelMsg} {msg : EsvThingModelMsg} (displayed : Displayed before)
    (same : ∀ node, ∃ id, sent node = { msg with pluginId := id })
    (sends : Sends w before after (before.neuNodeManagerGetAdapter type) sent) :
    DeliveredTo type before after msg := by
  have events := newEvents_of_trace sends.trace
  have received : recipients before after = before.neuNodeManagerGetAdapter type := by
    rw [recipients, events, List.filterMap_map]
    exact List.filterMap_some
  refine ⟨?_, ?_, ?_⟩
  · rw [received]
    exact getAdapter_nodup before type
  · intro node
    rw [received, mem_getAdapter]
    constructor
    · rintro ⟨e, found, _, display, type⟩
      exact ⟨e, found, display, type⟩
    · rintro ⟨e, found, display, type⟩
      exact ⟨e, found, (displayed node e found).1, display, type⟩
  · intro event inside
    rw [events] at inside
    obtain ⟨node, _, rfl⟩ := List.mem_map.1 inside
    obtain ⟨id, is⟩ := same node
    exact ⟨node, _, id, by rw [is]⟩

/- Runs. -/

structure Current (manager : NeuManager) : Prop where
  displayed : Displayed manager
  drivers : ∀ nodes, manager.esvdevicedrivernodes = some nodes →
    nodes = manager.neuNodeManagerGetAdapter .esvselfdevicedriver
  apps : ∀ nodes, manager.esvappnodes = some nodes →
    nodes = manager.neuNodeManagerGetAdapter .esvapp

/-- No adapter of a type is added once the nodes of that type have been asked for. -/
def BroadcastAllowed (manager : NeuManager) : BroadcastOp → Prop
  | .create w name moduleType =>
    manager.neuNodeManagerFind name = none → (w.plugin name).init = 0 →
      (moduleType = .esvselfdevicedriver → manager.esvdevicedrivernodes = none) ∧
      (moduleType = .esvapp → manager.esvappnodes = none)
  | .toAllEsvdevicedriver _ _ | .toEsvapps _ _ => True

theorem drivers_done (w : World) {manager : NeuManager} (msg : EsvThingModelMsg)
    (current : Current manager) :
    let after := (forwardThingModelMsgToAllEsvdevicedriver w manager msg).1
    DeliveredTo .esvselfdevicedriver manager after msg ∧ Current after := by
  have nodes : manager.esvdevicedrivernodes.getD
      (manager.neuNodeManagerGetAdapter .esvselfdevicedriver) =
        manager.neuNodeManagerGetAdapter .esvselfdevicedriver := by
    cases kept : manager.esvdevicedrivernodes with
    | none => rfl
    | some nodes => exact current.drivers nodes kept
  let asked : NeuManager := { manager with
    esvdevicedrivernodes := some (manager.neuNodeManagerGetAdapter .esvselfdevicedriver) }
  obtain ⟨⟨table, trace⟩, drivers, apps⟩ := driverLoop_sends w msg
    (manager.neuNodeManagerGetAdapter .esvselfdevicedriver) asked msg.pluginId
  unfold forwardThingModelMsgToAllEsvdevicedriver
  simp only [nodes]
  refine ⟨delivered_of_sends current.displayed (fun node => ⟨_, rfl⟩) ⟨table, trace⟩, ?_, ?_, ?_⟩
  · intro node e found
    rw [table] at found
    exact current.displayed node e found
  · intro kept is
    rw [drivers] at is
    rw [neuNodeManagerGetAdapter, table]
    exact (Option.some.inj is).symm
  · intro kept is
    rw [apps] at is
    rw [neuNodeManagerGetAdapter, table]
    exact current.apps kept is

theorem apps_done (w : World) {manager : NeuManager} (msg : EsvThingModelMsg)
    (current : Current manager) :
    let after := (forwardThingModelMsgToEsvapps w manager msg).1
    DeliveredTo .esvapp manager after msg ∧ Current after := by
  have nodes : manager.esvappnodes.getD (manager.neuNodeManagerGetAdapter .esvapp) =
      manager.neuNodeManagerGetAdapter .esvapp := by
    cases kept : manager.esvappnodes with
    | none => rfl
    | some nodes => exact current.apps nodes kept
  let asked : NeuManager := { manager with
    esvappnodes := some (manager.neuNodeManagerGetAdapter .esvapp) }
  obtain ⟨⟨table, trace⟩, drivers, apps⟩ :=
    appLoop_sends w msg (manager.neuNodeManagerGetAdapter .esvapp) asked
  unfold forwardThingModelMsgToEsvapps
  simp only [nodes]
  refine ⟨delivered_of_sends current.displayed (fun node => ⟨msg.pluginId, rfl⟩) ⟨table, trace⟩,
    ?_, ?_, ?_⟩
  · intro node e found
    rw [table] at found
    exact current.displayed node e found
  · intro kept is
    rw [drivers] at is
    rw [neuNodeManagerGetAdapter, table]
    exact current.drivers kept is
  · intro kept is
    rw [apps] at is
    rw [neuNodeManagerGetAdapter, table]
    exact (Option.some.inj is).symm

theorem loadConfig_named (plugin : PluginReturns) (config : Option CStr) (adapter : NeuAdapter) :
    (loadConfig plugin config adapter).1.name = adapter.name ∧
      (loadConfig plugin config adapter).1.moduleType = adapter.moduleType := by
  cases config with
  | none => exact ⟨rfl, rfl⟩
  | some text =>
    by_cases taken : plugin.setting text = 0 <;> simp [loadConfig, taken]

theorem created_named {plugin : PluginReturns} {config : Option CStr} {name : CStr}
    {moduleType : NeuNodeType} {adapter : NeuAdapter}
    (created : (neuAdapterCreate plugin config name moduleType).1 = some adapter) :
    adapter.name = name ∧ adapter.moduleType = moduleType ∧ plugin.init = 0 := by
  unfold neuAdapterCreate at created
  split at created
  · simp only at created
    split at created
    · next init =>
      cases created
      obtain ⟨named, typed⟩ := loadConfig_named plugin config ⟨name, none, .init, moduleType⟩
      exact ⟨named, typed, init⟩
    · cases created
  · cases created

theorem getAdapter_add {manager : NeuManager} {adapter : NeuAdapter} {type : NeuNodeType}
    (absent : manager.nodes.find adapter.name = none) (other : adapter.moduleType ≠ type) :
    (manager.neuNodeManagerAdd adapter).neuNodeManagerGetAdapter type =
      manager.neuNodeManagerGetAdapter type := by
  rw [neuNodeManagerGetAdapter, neuNodeManagerAdd, Table.entries_insert absent]
  simp [neuNodeManagerGetAdapter, List.filter_append, other]

theorem create_current {w : World} {manager : NeuManager} {name : CStr} {moduleType : NeuNodeType}
    (current : Current manager) (allowed : BroadcastAllowed manager (.create w name moduleType)) :
    Current (createNode w manager name moduleType) := by
  unfold createNode
  split
  · exact current
  next unknown =>
  have absent : manager.nodes.find name = none := Option.map_eq_none_iff.1 unknown
  simp only
  split
  · exact ⟨current.displayed, current.drivers, current.apps⟩
  next adapter created =>
  obtain ⟨rfl, rfl, init⟩ := created_named created
  obtain ⟨drivers, apps⟩ := allowed unknown init
  refine ⟨?_, ?_, ?_⟩
  · intro node e found
    obtain ⟨_, rfl⟩ | ⟨_, old⟩ := Table.find_insert_some found
    · exact ⟨rfl, rfl⟩
    · exact current.displayed node e old
  · intro nodes kept
    have other : adapter.moduleType ≠ .esvselfdevicedriver := by
      intro same
      have empty : manager.esvdevicedrivernodes = none := drivers same
      cases empty.symm.trans kept
    exact (current.drivers nodes kept).trans (getAdapter_add absent other).symm
  · intro nodes kept
    have other : adapter.moduleType ≠ .esvapp := by
      intro same
      have empty : manager.esvappnodes = none := apps same
      cases empty.symm.trans kept
    exact (current.apps nodes kept).trans (getAdapter_add absent other).symm

theorem broadcastStep_current (manager : NeuManager) (op : BroadcastOp) (current : Current manager)
    (allowed : BroadcastAllowed manager op) :
    ∃ after, broadcastStep manager op = some after ∧ Current after := by
  cases op with
  | create w name moduleType => exact ⟨_, rfl, create_current current allowed⟩
  | toAllEsvdevicedriver w msg => exact ⟨_, rfl, (drivers_done w msg current).2⟩
  | toEsvapps w msg => exact ⟨_, rfl, (apps_done w msg current).2⟩

theorem initial_current : Current initial := by
  refine ⟨?_, ?_, ?_⟩
  · intro node e found
    cases found
  · intro nodes kept
    cases kept
  · intro nodes kept
    cases kept

/-- After any such run, and so at every call in it, a call reaches the adapters of its type as they
are then. -/
theorem broadcast_delivers (ops : List BroadcastOp)
    (allowed : Along broadcastStep BroadcastAllowed initial ops) :
    ∃ manager, ops.foldlM broadcastStep initial = some manager ∧
      ∀ (w : World) (msg : EsvThingModelMsg),
        DeliveredTo .esvselfdevicedriver manager
          (forwardThingModelMsgToAllEsvdevicedriver w manager msg).1 msg ∧
        DeliveredTo .esvapp manager (forwardThingModelMsgToEsvapps w manager msg).1 msg := by
  obtain ⟨manager, ran, current⟩ := ends_of_step broadcastStep_current initial_current allowed
  exact ⟨manager, ran, fun w msg => ⟨(drivers_done w msg current).1, (apps_done w msg current).1⟩⟩

def selfDriver : CStr := .lit "KNX"

def matterApp : CStr := .lit "Matter"

theorem broadcast_delivers_early : ∃ manager,
    [.create houseWorld selfDriver .esvselfdevicedriver,
      .create houseWorld matterApp .esvapp,
      .toEsvapps houseWorld (propertyMsg .lanSubthingThingEventPropertyPost)].foldlM broadcastStep
        initial = some manager ∧
      ∀ (w : World) (msg : EsvThingModelMsg),
        DeliveredTo .esvselfdevicedriver manager
          (forwardThingModelMsgToAllEsvdevicedriver w manager msg).1 msg ∧
        DeliveredTo .esvapp manager (forwardThingModelMsgToEsvapps w manager msg).1 msg := by
  refine broadcast_delivers _ ⟨fun _ _ => ⟨fun _ => rfl, fun _ => rfl⟩, fun _ first =>
    ⟨fun _ _ => ⟨fun same => ?_, fun _ => ?_⟩, fun _ _ => ⟨trivial, fun _ _ => trivial⟩⟩⟩
  · cases same
  · cases first
    rfl

def lateApp : List BroadcastOp :=
  [.toEsvapps houseWorld (propertyMsg .lanSubthingThingEventPropertyPost),
    .create houseWorld matterApp .esvapp]

theorem late_app_misses : ¬ ∀ manager, lateApp.foldlM broadcastStep initial = some manager →
    DeliveredTo .esvapp manager (forwardThingModelMsgToEsvapps houseWorld manager
      (propertyMsg .lanSubthingThingEventPropertyPost)).1
      (propertyMsg .lanSubthingThingEventPropertyPost) := by
  intro all
  have state : (lateApp.foldlM broadcastStep initial).map (fun manager =>
      ((manager.nodes.find matterApp).map fun e => (e.display, e.adapter.moduleType),
        recipients manager (forwardThingModelMsgToEsvapps houseWorld manager
          (propertyMsg .lanSubthingThingEventPropertyPost)).1)) =
      some (some (true, .esvapp), []) := by decide +kernel
  obtain ⟨manager, ran, ended⟩ := Option.map_eq_some_iff.1 state
  obtain ⟨there, received⟩ := Prod.mk.inj ended
  obtain ⟨e, found, same⟩ := Option.map_eq_some_iff.1 there
  obtain ⟨display, type⟩ := Prod.mk.inj same
  have reached := ((all manager ran).adapters matterApp).2 ⟨e, found, display, type⟩
  rw [received] at reached
  cases reached

end Cpm
