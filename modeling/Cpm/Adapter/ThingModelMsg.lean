import Cpm.Core.Forward

/-! Messages that a plugin submits: `thing_model_msg_arrived` of `driver.c`. -/
namespace Cpm

open Lib NeuManager EsvThingModelMsgMethod

/-- printf writes a NULL string as "(null)". -/
def stringArg (text : Option CStr) : CStr := text.getD (.lit "(null)")

def deviceTopic (topicFormate : String) (msg : EsvThingModelMsg) : CStr :=
  .sprintf topicFormate [stringArg msg.productKey, stringArg msg.deviceName]

def pluginTopic (topicFormate : String) (msg : EsvThingModelMsg) : CStr :=
  .sprintf topicFormate [.lit (toString msg.pluginId)]

def publishTopic (msg : EsvThingModelMsg) : Option CStr :=
  match msg.method with
  | lanSubthingThingEventPropertyPost =>
    some (deviceTopic "lan/thing/sub/%s/%s/thing/event/property/post" msg)
  | lanSubthingThingServicePropertySet =>
    some (deviceTopic "lan/thing/sub/%s/%s/thing/service/property/set" msg)
  | lanSubthingThingServicePropertySetReply =>
    some (deviceTopic "lan/thing/sub/%s/%s/thing/service/property/setReply" msg)
  | lanSubthingThingServicePropertyGet =>
    some (deviceTopic "lan/thing/sub/%s/%s/thing/service/property/get" msg)
  | lanSubthingThingServicePropertyGetReply =>
    some (deviceTopic "lan/thing/sub/%s/%s/thing/service/property/getReply" msg)
  | wanSubthingThingServicePropertySetReply =>
    some (deviceTopic "wan/thing/sub/%s/%s/thing/service/property/setReply" msg)
  | wanSubthingThingServicePropertyGetReply =>
    some (deviceTopic "wan/thing/sub/%s/%s/thing/service/property/getReply" msg)
  | wanThingDiscoveryReply => some (.lit "wan/thing/discoveryReply")
  | wanSubthingThingDiscoveryReply =>
    some (deviceTopic "wan/thing/sub/%s/%s/thing/discoveryReply" msg)
  | wanSubthingThingConfigPushReply =>
    some (deviceTopic "wan/thing/sub/%s/%s/thing/config/pushReply" msg)
  | wanEasyhbesThingPluginNodeConfigPushReply =>
    some (pluginTopic "wan/thing/easyHbes/%d/config/pushReply" msg)
  | wanSubthingThingPluginNodeConfigPushReply =>
    some (deviceTopic "wan/%s/%s/thing/pluginNode/config/pushReply" msg)
  | wanSubthingThingPluginNodeActionPushReply =>
    some (.lit "wan/thing/pluginNode/action/pushReply")
  | appThingPluginNodeConfigPushReply =>
    some (pluginTopic "app/thing/pluginNode/%d/config/pushReply" msg)
  | appThingPluginNodeConfigReloadPushReply =>
    some (.lit "app/thing/pluginNode/config/pushReply")
  | lanThingServicePropertyPostreq | wanSubthingThingServicePropertySet
  | wanSubthingThingServicePropertyGet | wanThingDiscovery | wanSubthingThingDiscovery
  | wanSubthingThingConfigPush | wanEasyhbesThingPluginNodeConfigPush
  | wanSubthingThingPluginNodeConfigPush | wanSubthingThingPluginNodeActionPush
  | appThingPluginNodeConfigPush => none

def esvappMethods : List EsvThingModelMsgMethod :=
  [lanSubthingThingServicePropertySet, lanSubthingThingServicePropertyGet,
    lanSubthingThingEventPropertyPost, appThingPluginNodeConfigPushReply,
    appThingPluginNodeConfigReloadPushReply, wanSubthingThingPluginNodeConfigPushReply,
    wanSubthingThingPluginNodeActionPushReply]

def submits (type : NeuNodeType) (method : EsvThingModelMsgMethod) : Bool :=
  match type with
  | .esvdevicedriver | .esvselfdevicedriver => true
  | .esvapp => method ∈ esvappMethods
  | .driver | .app | .ndriver | .esvappdriver | .esvdevicedriver232 | .esvappdriver232
  | .esvapp232 => false

/-- Where a published message goes on to, by its method and the type of its sender. -/
def forwardSubmitted (w : World) (manager : NeuManager) (type : NeuNodeType)
    (msg : EsvThingModelMsg) : NeuManager :=
  match msg.method, type with
  | lanSubthingThingEventPropertyPost, .esvdevicedriver
  | lanSubthingThingServicePropertySet, .esvdevicedriver
  | lanSubthingThingServicePropertySetReply, .esvdevicedriver
  | lanSubthingThingServicePropertyGetReply, .esvdevicedriver =>
    (forwardThingModelMsgToEsvapps w manager msg).1
  | lanSubthingThingEventPropertyPost, .esvapp
  | lanSubthingThingServicePropertySet, .esvapp
  | lanSubthingThingServicePropertyGet, .esvapp =>
    (forwardThingModelMsgToEsvdriver w manager msg).1
  | _, _ => manager

def thingModelMsgArrived (w : World) (manager : NeuManager) (adapter : NeuAdapter)
    (thingModelMsg : EsvThingModelMsg) : NeuManager × Int :=
  if submits adapter.moduleType thingModelMsg.method then
    match publishTopic thingModelMsg with
    | none => (manager, 0)
    | some topic =>
      if thingModelMsg.msgType = .jsonStringPtr then
        let published := manager.record [.publish topic (.text (.read thingModelMsg.msg))]
        (forwardSubmitted w published adapter.moduleType thingModelMsg, 0)
      else (manager, 0)
  else (manager, 1)

end Cpm
