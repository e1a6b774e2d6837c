import Cpm.Adapter.Adapter
import Cpm.Base.Json
import Cpm.Lib.Table
import Cpm.Persist.ThingDb

/-! The node table of `node_manager.c` and the trace of what the manager does to the outside. -/
namespace Cpm

open Lib

structure NodeEntity where
  adapter : NeuAdapter
  isStatic : Bool
  display : Bool
  single : Bool
  deriving DecidableEq, Repr

inductive PublishedMsg where
  | text (msg : CStr)
  | dumped (root : Json)

inductive Event where
  | plugin (node : CStr) (call : PluginCall)
  | publish (topic : CStr) (payload : PublishedMsg)

/-- The two lists are the static arrays of `manager_adapter_msg.c`: an adapter in them is
known by its node. -/
structure NeuManager where
  nodes : Table CStr NodeEntity
  esvdevicedrivernodes : Option (List CStr)
  esvappnodes : Option (List CStr)
  trace : List Event

/-- What a request meets outside: the thing database, the plugins' answers, the JSON parser, what a
node name makes of a SELECT that it is pasted into, and the identifier drawn for a reply. -/
structure World where
  db : ThingDb
  plugin : CStr → PluginReturns
  jsonLoads : CStr → Option Json
  selectOther : CStr → CStr
  uuid : CStr

namespace NeuManager

def initial : NeuManager := ⟨.empty, none, none, []⟩

def neuNodeManagerFind (manager : NeuManager) (name : CStr) : Option NeuAdapter :=
  (manager.nodes.find name).map NodeEntity.adapter

/-- Every displayed node that is not static, in the order of the table. -/
def neuNodeManagerGetAdapter (manager : NeuManager) (type : NeuNodeType) : List CStr :=
  (manager.nodes.entries.filter fun e =>
    !e.2.isStatic && e.2.display && e.2.adapter.moduleType = type).map Prod.fst

def neuNodeManagerAdd (manager : NeuManager) (adapter : NeuAdapter) : NeuManager :=
  { manager with nodes := manager.nodes.insert adapter.name ⟨adapter, false, true, false⟩ }

def setAdapter (manager : NeuManager) (node : CStr) (adapter : NeuAdapter) : NeuManager :=
  { manager with nodes := manager.nodes.modify node fun e => { e with adapter := adapter } }

def record (manager : NeuManager) (events : List Event) : NeuManager :=
  { manager with trace := manager.trace ++ events }

def newEvents (before after : NeuManager) : List Event :=
  after.trace.drop before.trace.length

def called (manager : NeuManager) (node : CStr) (calls : List PluginCall) : NeuManager :=
  manager.record (calls.map (.plugin node))

def serve (manager : NeuManager) (node : CStr) (served : Served) : NeuManager :=
  (manager.setAdapter node served.adapter).called node served.calls

@[simp] theorem trace_record (manager : NeuManager) (events : List Event) :
    (manager.record events).trace = manager.trace ++ events := rfl

@[simp] theorem nodes_record (manager : NeuManager) (events : List Event) :
    (manager.record events).nodes = manager.nodes := rfl

@[simp] theorem trace_called (manager : NeuManager) (node : CStr) (calls : List PluginCall) :
    (manager.called node calls).trace = manager.trace ++ calls.map (.plugin node) := rfl

@[simp] theorem nodes_called (manager : NeuManager) (node : CStr) (calls : List PluginCall) :
    (manager.called node calls).nodes = manager.nodes := rfl

theorem newEvents_of_trace {before after : NeuManager} {events : List Event}
    (trace : after.trace = before.trace ++ events) : newEvents before after = events := by
  rw [newEvents, trace, List.drop_left]

@[simp] theorem newEvents_self (manager : NeuManager) : newEvents manager manager = [] :=
  newEvents_of_trace (List.append_nil _).symm

@[simp] theorem trace_setAdapter (manager : NeuManager) (node : CStr) (adapter : NeuAdapter) :
    (manager.setAdapter node adapter).trace = manager.trace := rfl

theorem find_record (manager : NeuManager) (events : List Event) (name : CStr) :
    (manager.record events).neuNodeManagerFind name = manager.neuNodeManagerFind name := rfl

theorem find_serve (manager : NeuManager) (node : CStr) (served : Served) (name : CStr) :
    (manager.serve node served).neuNodeManagerFind name =
      if name = node then (manager.neuNodeManagerFind name).map fun _ => served.adapter
      else manager.neuNodeManagerFind name := by
  unfold neuNodeManagerFind serve called record setAdapter
  rw [Table.find_modify]
  split <;> simp [Option.map_map, Function.comp_def]

theorem find_add (manager : NeuManager) (adapter : NeuAdapter) (name : CStr) :
    (manager.neuNodeManagerAdd adapter).neuNodeManagerFind name =
      if name = adapter.name then some adapter else manager.neuNodeManagerFind name := by
  unfold neuNodeManagerFind neuNodeManagerAdd
  rw [Table.find_insert]
  split <;> simp

end NeuManager

/- A gateway with two drivers and an app, for the concrete runs. -/

def adapterOf (name : String) (moduleType : NeuNodeType) : NeuAdapter :=
  ⟨.lit name, none, .running, moduleType⟩

def house : NeuManager :=
  [adapterOf "KNX" .esvdevicedriver, adapterOf "Modbus" .esvdevicedriver,
    adapterOf "Matter" .esvapp].foldl NeuManager.neuNodeManagerAdd .initial

def nodeRow (id name : String) (type : Nat) : PluginNodeRow :=
  ⟨.lit id, some (.lit name), type, some (.lit "{}")⟩

def houseWorld : World where
  db :=
    { pluginNode := [nodeRow "1" "KNX" 9, nodeRow "2" "Modbus" 9, nodeRow "3" "Matter" 11]
      thingDevice := [⟨some (.lit "lamp"), some (.lit "one"), some (.lit "1")⟩] }
  plugin := fun _ => ⟨0, fun _ => 0, 0, 0, fun _ => 0⟩
  jsonLoads := fun _ => none
  selectOther := fun _ => .empty
  uuid := .empty

end Cpm
