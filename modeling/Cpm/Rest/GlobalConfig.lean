import Cpm.Base.ThingModel
import Cpm.Base.Group
import Cpm.Driver.Cache
import Cpm.Rest.TagJson

/-! The messages of `adapter.h` that the global configuration handlers send and receive, and the
decoded request of `neu_json_global_config.h`. -/
namespace Cpm

open Lib

def NEU_ERR_IS_BUSY : Int := 1010

def NEU_NODE_NAME_LEN : Nat := 128

def NEU_PLUGIN_NAME_LEN : Nat := 128

abbrev CharArray (size : Nat) := {s : CStr // s.strlen < size}

/-- Without a result where `strcpy` writes past the end of the array. -/
def strcpy (size : Nat) (src : CStr) : Option (CharArray size) :=
  if fits : src.strlen < size then some ⟨src, fits⟩ else none

structure NeuRespNodeInfo where
  node : CharArray NEU_NODE_NAME_LEN
  plugin : CharArray NEU_PLUGIN_NAME_LEN
  deriving DecidableEq

structure NeuRespDriverGroupInfo where
  driver : CharArray NEU_NODE_NAME_LEN
  group : CharArray NEU_GROUP_NAME_LEN
  tagCount : UInt16
  interval : UInt32
  deriving DecidableEq

structure NeuRespSubscribeInfo where
  app : CharArray NEU_NODE_NAME_LEN
  driver : CharArray NEU_NODE_NAME_LEN
  group : CharArray NEU_GROUP_NAME_LEN
  params : Option CStr
  deriving DecidableEq

/-- A response with its type. An error is followed by four bytes that are not its own. -/
inductive RespData where
  | error (error behind : Int)
  | getNode (nodes : List NeuRespNodeInfo)
  | getDriverGroup (groups : List NeuRespDriverGroupInfo)
  | getTag (tags : List NeuDatatag)
  | getSubscribeGroup (groups : List NeuRespSubscribeInfo)
  | getNodeSetting (node : CharArray NEU_NODE_NAME_LEN) (setting : CStr)
  | addTag (index : UInt16) (error : Int)
  deriving DecidableEq

/-- A `neu_datatag_t` as a request carries it. -/
structure ReqTag where
  name : CStr
  address : CStr
  attributes : Nat
  type : NeuType
  precision : UInt8
  decimal : Nat
  description : CStr
  staticValue : Option ValueU
  deriving DecidableEq

inductive RestReq where
  | getNode (type : NeuNodeType)
  | getDriverGroup
  | getTag (driver : CharArray NEU_NODE_NAME_LEN) (group : CharArray NEU_GROUP_NAME_LEN)
  | getSubscribeGroup (app : CharArray NEU_NODE_NAME_LEN)
  | getNodeSetting (node : CharArray NEU_NODE_NAME_LEN)
  | delNode (node : CharArray NEU_NODE_NAME_LEN)
  | addNode (node : CharArray NEU_NODE_NAME_LEN) (plugin : CharArray NEU_PLUGIN_NAME_LEN)
  | addGroup (driver : CharArray NEU_NODE_NAME_LEN) (group : CharArray NEU_GROUP_NAME_LEN)
    (interval : UInt32)
  | addTag (driver : CharArray NEU_NODE_NAME_LEN) (group : CharArray NEU_GROUP_NAME_LEN)
    (nTag : UInt16) (tags : List ReqTag)
  | subscribeGroup (app driver : CharArray NEU_NODE_NAME_LEN) (group : CharArray NEU_GROUP_NAME_LEN)
    (params : Option CStr)
  | nodeSetting (node : CharArray NEU_NODE_NAME_LEN) (setting : CStr)
  deriving DecidableEq

structure NeuJsonGetNodesRespNode where
  name : CStr
  plugin : CStr

structure NeuJsonGetDriverGroupRespGroup where
  driver : CStr
  group : CStr
  interval : Int
  tagCount : Int

structure NeuJsonAddTagsReq where
  node : CStr
  group : CStr
  tags : List NeuJsonTag

structure NeuJsonSubscribeReq where
  group : CStr
  app : CStr
  driver : CStr
  params : Option CStr

structure NeuJsonNodeSettingReq where
  node : CStr
  setting : CStr

structure NeuJsonGlobalConfigReq where
  nodes : List NeuJsonGetNodesRespNode
  groups : List NeuJsonGetDriverGroupRespGroup
  tags : List NeuJsonAddTagsReq
  subscriptions : List NeuJsonSubscribeReq
  settings : List NeuJsonNodeSettingReq

def isStaticNode (name plugin : CStr) : Bool := name = .lit "monitor" && plugin = .lit "Monitor"

inductive ContextState where
  | start
  | getApp
  | getDriver
  | getGroup
  | getTag
  | getSubscription
  | getAppSetting
  | getDriverSetting
  | delApp
  | delDriver
  | addNode
  | addGroup
  | addTag
  | addSubscription
  | addSetting
  | stop
  deriving DecidableEq

/- Fixed values. -/

def mqttNode : NeuRespNodeInfo := ⟨⟨.lit "mqtt", by decide⟩, ⟨.lit "MQTT", by decide⟩⟩

end Cpm
