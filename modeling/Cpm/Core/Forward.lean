import Cpm.Core.NodeManager

/-! The forwarding functions of `manager_adapter_msg.c` and the reply builders of
`parser_adapter_config.c`. A result `none` is a crash: a NULL string where the C library
needs one, or a text too long for its buffer. -/
namespace Cpm

open Lib NeuManager

def EXIT_FAILURE : Int := 1

def arrived (w : World) (manager : NeuManager) (node : CStr) (msg : EsvThingModelMsg) :
    NeuManager × Int :=
  let rv := (w.plugin node).thingModelMsgArrived msg
  (manager.called node [.thingModelMsgArrived msg rv], rv)

def withPluginId (w : World) (node : CStr) (msg : EsvThingModelMsg) : EsvThingModelMsg :=
  { msg with pluginId := (selectPluginNode w.db w.selectOther node).atoi }

/-- The loop over the selected names; a name without an adapter ends it. -/
def forwardLoop (w : World) :
    List CStr → NeuManager → EsvThingModelMsg → Int → NeuManager × Int
  | [], manager, _, rv => (manager, rv)
  | temp :: rest, manager, msg, _ =>
    match manager.neuNodeManagerFind temp with
    | none => (manager, EXIT_FAILURE)
    | some adapter =>
      let msg := withPluginId w adapter.name msg
      let sent := arrived w manager temp msg
      forwardLoop w rest sent.1 msg sent.2

/-- Every node of type 9 or 11 is selected, whatever device the message is for. -/
def forwardThingModelMsgToEsvdriver (w : World) (manager : NeuManager) (msg : EsvThingModelMsg) :
    NeuManager × Int :=
  forwardLoop w (esvPersisterQueryDeviceNodeNameByNodeType w.db) manager msg 0

def forwardThingModelMsgToAllEsvdevicedriver (w : World) (manager : NeuManager)
    (msg : EsvThingModelMsg) : NeuManager × Int :=
  let nodes := manager.esvdevicedrivernodes.getD
    (manager.neuNodeManagerGetAdapter .esvselfdevicedriver)
  let step := fun (sent : NeuManager × EsvThingModelMsg) node =>
    let msg := withPluginId w node sent.2
    ((arrived w sent.1 node msg).1, msg)
  ((nodes.foldl step ({ manager with esvdevicedrivernodes := some nodes }, msg)).1, 0)

def forwardThingModelMsgToEsvapps (w : World) (manager : NeuManager) (msg : EsvThingModelMsg) :
    NeuManager × Int :=
  let nodes := manager.esvappnodes.getD (manager.neuNodeManagerGetAdapter .esvapp)
  (nodes.foldl (fun manager node => (arrived w manager node msg).1)
    { manager with esvappnodes := some nodes }, 0)

def forwardThingModelMsgToPluginNode (w : World) (manager : NeuManager) (msg : EsvThingModelMsg)
    (pluginNodeId : Option CStr) : Option (NeuManager × Int) := do
  match ← esvPersisterQueryDeviceNodeNameByNodeId w.db pluginNodeId with
  | none => return (manager, EXIT_FAILURE)
  | some nodeName =>
    match manager.neuNodeManagerFind nodeName with
    | none => return (manager, EXIT_FAILURE)
    | some _ => return arrived w manager nodeName msg

/-- The document both reply builders make; the further members stand in `data`. -/
def pushReply (uuid transId : CStr) (code : Json) (configType : Int)
    (further : List (String × Json)) (result : Int) (pluginNodeId : CStr) : Json :=
  .object [("id", .string uuid), ("transId", .string transId), ("code", code),
    ("method", .string (.lit "thing.pluginNode.config.pushReply")),
    ("data", .object (("configType", .integer configType) :: further ++
      [("configResult", .object [("result", .integer result),
        ("pluginNodeId", .string pluginNodeId)])]))]

/-- The reply's config type is read from the member `pluginNodeId`. -/
def replyConfigType (recvMsg : Option Json) : Int :=
  (jsonIntegerValue (jsonObjectGet (jsonObjectGet recvMsg "params") "pluginNodeId")).bmod (2 ^ 32)

def requestTransId (recvMsg : Option Json) : Option CStr :=
  jsonStringValue (jsonObjectGet recvMsg "transId")

def requestPluginNodeId (recvMsg : Option Json) : Option CStr :=
  jsonStringValue (jsonObjectGet (jsonObjectGet recvMsg "params") "pluginNodeId")

def sendConfigPluginResultsForMatter (w : World) (recvMsg : Option Json) (result : Int) :
    Option Event := do
  let transId ← requestTransId recvMsg
  let pluginNodeId ← requestPluginNodeId recvMsg
  return .publish (.lit "app/thing/pluginNode/config/pushReply") (.dumped
    (pushReply w.uuid transId (.integer 200) (replyConfigType recvMsg) [] result pluginNodeId))

def sendConfigPluginResults (w : World) (parentProductKey parentDeviceName : Option CStr)
    (recvMsg : Option Json) (result : Int) : Option Event := do
  let transId ← requestTransId recvMsg
  let pluginNodeId ← requestPluginNodeId recvMsg
  let _ ← parentProductKey
  let _ ← parentDeviceName
  return .publish (.lit "wan/thing/pluginNode/config/pushReply") (.dumped
    (pushReply w.uuid transId (.string (.lit "200")) (replyConfigType recvMsg)
      [("deviceIotId", .string .empty)] result pluginNodeId))

def accepted (plugin : PluginReturns) (config : Option CStr) : Bool :=
  config.any fun text => plugin.setting text = 0

/-- Load, hand over and start again: what both reloads do behind the stop. The result of the
start is dropped and the state is not looked at. -/
def reloadConfig (w : World) (manager : NeuManager) (node : CStr) (adapter : NeuAdapter) :
    NeuManager :=
  let plugin := w.plugin node
  let loaded := loadConfig plugin (esvPersisterLoadNodeConfig w.db adapter.name) adapter
  manager.serve node ⟨loaded.1, loaded.2 ++ [.start plugin.start], plugin.start⟩

def stopPlugin (w : World) (manager : NeuManager) (node : CStr) : NeuManager :=
  manager.called node [.stop (w.plugin node).stop]

def pluginNodeIdSize : Nat := 1024

def copyPluginNodeId (text : Option CStr) : Option CStr :=
  text.filter fun text => text.strlen < pluginNodeIdSize

def matterItems : List CStr :=
  [.lit "deviceRegister", .lit "deviceUnregister", .lit "deviceBatchUnregister",
    .lit "bridgeFactoryReset"]

def requestConfigItem (recvMsg : Option Json) : Option CStr :=
  jsonStringValue (jsonObjectGet (jsonObjectGet recvMsg "params") "configItem")

/-- With a `configItem` the id is the one from the topic. -/
def matterPluginNodeId (recvConfig : Option Json) (msg : EsvThingModelMsg) : Option CStr :=
  match requestConfigItem recvConfig with
  | some _ => some (.lit (toString msg.pluginId))
  | none => copyPluginNodeId (requestPluginNodeId recvConfig)

/-- The result 1 for a missing node is set, but the search that follows takes the NULL name. -/
def forwardThingModelMatterReloadMsgToEsvdriver (w : World) (manager : NeuManager)
    (msg : EsvThingModelMsg) : Option (NeuManager × Int) := do
  let recvConfig := w.jsonLoads (.read msg.msg)
  let pluginNodeId ← matterPluginNodeId recvConfig msg
  let nodeName ← ← esvPersisterQueryDeviceNodeNameByNodeId w.db (some pluginNodeId)
  match manager.neuNodeManagerFind nodeName with
  | none => return (manager, EXIT_FAILURE)
  | some adapter =>
    match requestConfigItem recvConfig with
    | some item =>
      if item ∈ matterItems then return ((arrived w manager nodeName msg).1, 0)
      else return (manager, 0)
    | none =>
      let stopped := stopPlugin w manager nodeName
      if (w.plugin nodeName).stop ≠ 0 then return (stopped, 0)
      else
        let reply ← sendConfigPluginResultsForMatter w recvConfig 0
        return ((reloadConfig w stopped nodeName adapter).record [reply], 0)

/-- The branch for a scene action: the message goes to the plugin of the named node. -/
def forwardAction (w : World) (manager : NeuManager) (msg : EsvThingModelMsg) :
    Option (NeuManager × Int) := do
  match w.jsonLoads (.read msg.msg) with
  | none => return (manager, -1)
  | some root =>
    match requestPluginNodeId (some root) with
    | none => return (manager, -1)
    | some pluginNodeId =>
      match ← esvPersisterQueryDeviceNodeNameByNodeId w.db (some pluginNodeId) with
      | none => return (manager, EXIT_FAILURE)
      | some nodeName =>
        match manager.neuNodeManagerFind nodeName with
        | none => return (manager, EXIT_FAILURE)
        | some _ =>
          let sent := arrived w manager nodeName msg
          if sent.2 ≠ 0 then return (sent.1, EXIT_FAILURE) else return (sent.1, 0)

/-- strncpy of `msgLen` bytes into as many: without a NUL among them the copy has no terminator, and
`json_loads` reads on behind it. -/
def copyRecvMsg (msg : EsvThingModelMsg) : Option CStr :=
  let bytes := msg.msg.take msg.msgLen
  if '\x00' ∈ bytes then some (.read bytes) else none

def forwardThingControlMsgToEsvdriver (w : World) (manager : NeuManager)
    (msg : EsvThingModelMsg) : Option (NeuManager × Int) := do
  let recvMsg ← copyRecvMsg msg
  if msg.method = .wanSubthingThingPluginNodeActionPush then forwardAction w manager msg
  else
    let recvConfig := w.jsonLoads recvMsg
    let pluginNodeId := requestPluginNodeId recvConfig
    let nodeName ← ← esvPersisterQueryDeviceNodeNameByNodeId w.db pluginNodeId
    match manager.neuNodeManagerFind nodeName with
    | none => return (manager, EXIT_FAILURE)
    | some adapter =>
      let stopped := stopPlugin w manager nodeName
      let config := esvPersisterLoadNodeConfig w.db adapter.name
      let configResult := if accepted (w.plugin nodeName) config then 0 else 2
      let reply ← sendConfigPluginResults w msg.productKey msg.deviceName recvConfig configResult
      return ((reloadConfig w stopped nodeName adapter).record [reply], 0)

end Cpm
