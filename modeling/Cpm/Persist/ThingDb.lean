import Cpm.Base.ThingModel

/-! The queries of `persist.c` and `sql_handle.c` on the thing database. A query returns the
rows it selects, in table order; a NULL column is `none`. -/
namespace Cpm

open Lib

structure PluginNodeRow where
  nodeId : CStr
  nodeName : Option CStr
  nodeType : Nat
  nodeConfig : Option CStr
  deriving DecidableEq, Repr

structure ThingDeviceRow where
  productKey : Option CStr
  deviceName : Option CStr
  pluginNodeId : Option CStr
  deriving DecidableEq, Repr

structure ThingDb where
  pluginNode : List PluginNodeRow
  thingDevice : List ThingDeviceRow
  deriving DecidableEq, Repr

/-- Comparison with a bound parameter: NULL equals nothing. -/
def sqlEq (column bound : Option CStr) : Bool :=
  column.isSome && column = bound

/-- Node names joined to a device: `thing_device` INNER JOIN `plugin_node`. -/
def deviceNodes (db : ThingDb) (productKey deviceName : Option CStr) : List (Option CStr) :=
  db.thingDevice.flatMap fun device =>
    if sqlEq device.productKey productKey && sqlEq device.deviceName deviceName then
      (db.pluginNode.filter fun node => sqlEq device.pluginNodeId (some node.nodeId)).map
        PluginNodeRow.nodeName
    else []

/-- The node a device is bound to: the row of `esv_persister_query_device_node_name`. -/
def esvPersisterQueryDeviceNodeName (db : ThingDb) (productKey deviceName : Option CStr) :
    Option CStr :=
  (deviceNodes db productKey deviceName).head?.join

def esvPersisterQueryDeviceNodeNameByNodeType (db : ThingDb) : List CStr :=
  (db.pluginNode.filter fun node => node.nodeType = 9 || node.nodeType = 11).filterMap
    PluginNodeRow.nodeName

/-- The outer option is the crash of strdup on a NULL name, the inner one a missing row. -/
def esvPersisterQueryDeviceNodeNameByNodeId (db : ThingDb) (pluginNodeId : Option CStr) :
    Option (Option CStr) :=
  match db.pluginNode.find? fun node => sqlEq (some node.nodeId) pluginNodeId with
  | none => some none
  | some node => node.nodeName.map some

def esvPersisterLoadNodeConfig (db : ThingDb) (nodeName : CStr) : Option CStr :=
  (db.pluginNode.find? fun node => sqlEq node.nodeName (some nodeName)).bind
    PluginNodeRow.nodeConfig

/-- The callback overwrites the buffer for every row. The name is pasted into the statement as it
is: a quote in it, or the end of the buffer, makes another statement, and `other` says what comes
of that. -/
def selectPluginNode (db : ThingDb) (other : CStr → CStr) (nodeName : CStr) : CStr :=
  if '\'' ∈ nodeName.chars ∨ 966 < nodeName.strlen then other nodeName
  else ((db.pluginNode.filter fun node => sqlEq node.nodeName (some nodeName)).getLast?.map
    PluginNodeRow.nodeId).getD .empty

end Cpm
