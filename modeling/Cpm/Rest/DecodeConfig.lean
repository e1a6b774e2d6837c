import Cpm.Rest.GlobalConfig

/-! The document of a global configuration, decoded as in `neu_json_global_config.c`. -/
namespace Cpm

open Lib

section
variable (casts : CastOps)

def decodeNode (json : Json) : Decoded NeuJsonGetNodesRespNode := do
  match ← neuJsonDecodeByJson casts (some json) [required "name" .str, required "plugin" .str] with
  | [some (.str name), some (.str plugin)] => .ok { name, plugin }
  | _ => .error .failed

/-- There has to be a node. -/
def neuJsonDecodeGetNodesRespJson (json : Json) : Decoded (List NeuJsonGetNodesRespNode) := do
  let nodes ← arrayAt json "nodes"
  if nodes.length ≤ 0 then .error .failed else nodes.mapM (decodeNode casts)

def decodeGroup (json : Json) : Decoded NeuJsonGetDriverGroupRespGroup := do
  match ← neuJsonDecodeByJson casts (some json)
    [required "driver" .str, required "group" .str, required "interval" .int,
      required "tag_count" .int] with
  | [some (.str driver), some (.str group), some (.int interval), some (.int tagCount)] =>
    .ok { driver, group, interval, tagCount }
  | _ => .error .failed

def neuJsonDecodeGetDriverGroupRespJson (json : Json) :
    Decoded (List NeuJsonGetDriverGroupRespGroup) := do
  let groups ← arrayAt json "groups"
  groups.mapM (decodeGroup casts)

def decodeAddTagsReq (json : Json) : Decoded NeuJsonAddTagsReq := do
  match ← neuJsonDecodeByJson casts (some json)
    [required "driver" .str, required "group" .str, required "tags" .object] with
  | [some (.str driver), some (.str group), some (.object object)] => do
    let tags ← neuJsonDecodeTagArrayJson casts object
    return { node := driver, group, tags }
  | _ => .error .failed

def neuJsonDecodeGlobalConfigReqTags (json : Json) : Decoded (List NeuJsonAddTagsReq) := do
  let tags ← arrayAt json "tags"
  tags.mapM (decodeAddTagsReq casts)

variable (j : Jansson)

def decodeSubscribeReq (app : CStr) (json : Json) : Decoded NeuJsonSubscribeReq := do
  match ← neuJsonDecodeByJson casts (some json) [required "driver" .str, required "group" .str] with
  | [some (.str driver), some (.str group)] => do
    let params ← neuJsonDumpKey j json "params" false
    return { group, app, driver, params }
  | _ => .error .failed

def decodeSubscription (json : Json) : Decoded (List NeuJsonSubscribeReq) :=
  match jsonObjectGet (some json) "app" with
  | none => .error .failed
  | some app => do
    let groups ← arrayAt json "groups"
    groups.mapM fun group =>
      match jsonStringValue (some app) with
      | none => .error .crashed
      | some app => decodeSubscribeReq casts j app group

/-- The groups of every subscription are looked for before any is decoded. -/
def neuJsonDecodeGlobalConfigReqSubscriptions (json : Json) : Decoded (List NeuJsonSubscribeReq) := do
  let subscriptions ← arrayAt json "subscriptions"
  let _ ← subscriptions.mapM fun subscription => arrayAt subscription "groups"
  let requests ← subscriptions.mapM (decodeSubscription casts j)
  return requests.flatten

def decodeSetting (json : Json) : Decoded NeuJsonNodeSettingReq :=
  match jsonObjectGet (some json) "node" with
  | none => .error .failed
  | some node =>
    match jsonStringValue (some node) with
    | none => .error .crashed
    | some node => do
      match ← neuJsonDumpKey j json "params" true with
      | some setting => .ok { node, setting }
      | none => .error .failed

def neuJsonDecodeGlobalConfigReqSettings (json : Json) : Decoded (List NeuJsonNodeSettingReq) := do
  let settings ← arrayAt json "settings"
  settings.mapM (decodeSetting j)

def neuJsonDecodeGlobalConfigReq (json : Json) : Decoded NeuJsonGlobalConfigReq := do
  let nodes ← neuJsonDecodeGetNodesRespJson casts json
  let groups ← neuJsonDecodeGetDriverGroupRespJson casts json
  let tags ← neuJsonDecodeGlobalConfigReqTags casts json
  let subscriptions ← neuJsonDecodeGlobalConfigReqSubscriptions casts j json
  let settings ← neuJsonDecodeGlobalConfigReqSettings j json
  return { nodes, groups, tags, subscriptions, settings }

end

end Cpm
