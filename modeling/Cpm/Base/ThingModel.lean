import Cpm.Lib.CString

/-! Thing model messages, from `device.h`, and the node types and running states of
`define.h`. -/
namespace Cpm

open Lib

inductive NeuNodeType where
  | driver
  | app
  | ndriver
  | esvdevicedriver
  | esvappdriver
  | esvapp
  | esvdevicedriver232
  | esvappdriver232
  | esvapp232
  | esvselfdevicedriver
  deriving DecidableEq, Repr

def NeuNodeType.code : NeuNodeType → Nat
  | .driver => 1
  | .app => 2
  | .ndriver => 4
  | .esvdevicedriver => 9
  | .esvappdriver => 10
  | .esvapp => 11
  | .esvdevicedriver232 => 12
  | .esvappdriver232 => 13
  | .esvapp232 => 14
  | .esvselfdevicedriver => 15

inductive NeuNodeRunningState where
  | init
  | ready
  | running
  | stopped
  deriving DecidableEq, Repr

inductive EsvThingModelMsgMethod where
  | lanSubthingThingEventPropertyPost
  | lanSubthingThingServicePropertySet
  | lanSubthingThingServicePropertySetReply
  | lanSubthingThingServicePropertyGet
  | lanSubthingThingServicePropertyGetReply
  | wanSubthingThingServicePropertySet
  | wanSubthingThingServicePropertySetReply
  | wanSubthingThingServicePropertyGet
  | wanSubthingThingServicePropertyGetReply
  | lanThingServicePropertyPostreq
  | wanThingDiscovery
  | wanThingDiscoveryReply
  | wanSubthingThingDiscovery
  | wanSubthingThingDiscoveryReply
  | wanSubthingThingConfigPush
  | wanSubthingThingConfigPushReply
  | wanEasyhbesThingPluginNodeConfigPush
  | wanEasyhbesThingPluginNodeConfigPushReply
  | wanSubthingThingPluginNodeConfigPush
  | wanSubthingThingPluginNodeConfigPushReply
  | wanSubthingThingPluginNodeActionPush
  | wanSubthingThingPluginNodeActionPushReply
  | appThingPluginNodeConfigPush
  | appThingPluginNodeConfigPushReply
  | appThingPluginNodeConfigReloadPushReply
  deriving DecidableEq, Repr

inductive EsvThingModelMsgType where
  | jsonStringPtr
  | jassonObjectPtr
  deriving DecidableEq, Repr

/-- `esv_thing_model_msg_t`. A NULL string is `none`; `msg` is the buffer behind the
pointer, of which `msgLen` characters count. -/
structure EsvThingModelMsg where
  method : EsvThingModelMsgMethod
  productKey : Option CStr
  deviceName : Option CStr
  msgType : EsvThingModelMsgType
  msg : List Char
  msgLen : Nat
  pluginId : Int
  deriving DecidableEq, Repr

end Cpm
