import Cpm.Rest.DecodeConfig

/-! The requests and responses of the REST API that have an encoder and a decoder, from the files
`neu_json_*.c`. What is encoded is decoded as a JSON document; no array has 2^31 items. -/
namespace Cpm

open Lib

structure NeuJsonTemplateGroup where
  name : CStr
  interval : Int
  tags : List NeuJsonTag

structure NeuJsonTemplate where
  name : CStr
  plugin : CStr
  groups : List NeuJsonTemplateGroup

inductive ApiMsg where
  | addNode (plugin name : CStr)
  | delNode (name : CStr)
  | updateNode (name newName : CStr)
  | nodeCtl (node : CStr) (cmd : Int)
  | nodeSetting (req : NeuJsonNodeSettingReq)
  | getNodes (nodes : List NeuJsonGetNodesRespNode)
  | addGroup (node group : CStr) (interval : Int)
  | delGroup (node group : CStr)
  | updateGroup (node group : CStr) (newName : Option CStr) (interval : Option Int)
  | getDriverGroup (groups : List NeuJsonGetDriverGroupRespGroup)
  | addTags (req : NeuJsonAddTagsReq)
  | delTags (node group : CStr) (tags : List CStr)
  | ndriverMap (ndriver driver group : CStr)
  | template (tmpl : NeuJsonTemplate)
  | templateModGroup (tmpl group : CStr) (interval : Int)
  | templateDelGroup (tmpl group : CStr)
  | templateModTags (tmpl group : CStr) (tags : List NeuJsonTag)
  | templateDelTags (tmpl group : CStr) (tags : List CStr)

inductive ApiType where
  | addNode
  | delNode
  | updateNode
  | nodeCtl
  | nodeSetting
  | getNodes
  | addGroup
  | delGroup
  | updateGroup
  | getDriverGroup
  | addTags
  | delTags
  | ndriverMap
  | template
  | templateModGroup
  | templateDelGroup
  | templateModTags
  | templateDelTags
  deriving DecidableEq, Repr

def ApiMsg.type : ApiMsg → ApiType
  | addNode _ _ => .addNode
  | delNode _ => .delNode
  | updateNode _ _ => .updateNode
  | nodeCtl _ _ => .nodeCtl
  | nodeSetting _ => .nodeSetting
  | getNodes _ => .getNodes
  | addGroup _ _ _ => .addGroup
  | delGroup _ _ => .delGroup
  | updateGroup _ _ _ _ => .updateGroup
  | getDriverGroup _ => .getDriverGroup
  | addTags _ => .addTags
  | delTags _ _ _ => .delTags
  | ndriverMap _ _ _ => .ndriverMap
  | template _ => .template
  | templateModGroup _ _ _ => .templateModGroup
  | templateDelGroup _ _ => .templateDelGroup
  | templateModTags _ _ _ => .templateModTags
  | templateDelTags _ _ _ => .templateDelTags

/- Encoders. -/

section
variable (j : Jansson) (casts : CastOps)

/-- `neu_json_encode_array_value` for each name: a text that is no UTF-8 is not appended. -/
def nameArray (names : List CStr) : Json := .array (names.filterMap (jsonString j))

def neuJsonEncodeTagArray (tags : List NeuJsonTag) : Json :=
  .array (tags.map (neuJsonEncodeTag j casts))

def encodeNodeEntry (node : NeuJsonGetNodesRespNode) : Json :=
  neuJsonEncodeEntry j casts [("plugin", .str node.plugin), ("name", .str node.name)]

def encodeGroupEntry (group : NeuJsonGetDriverGroupRespGroup) : Json :=
  neuJsonEncodeEntry j casts
    [("driver", .str group.driver), ("group", .str group.group), ("tag_count", .int group.tagCount),
      ("interval", .int group.interval)]

def neuJsonEncodeTemplateGroup (grp : NeuJsonTemplateGroup) : Json :=
  neuJsonEncodeEntry j casts
    [("name", .str grp.name), ("interval", .int grp.interval),
      ("tags", .object (neuJsonEncodeTagArray j casts grp.tags))]

def neuJsonEncodeTemplate (tmpl : NeuJsonTemplate) : Json :=
  neuJsonEncodeEntry j casts
    [("name", .str tmpl.name), ("plugin", .str tmpl.plugin),
      ("groups", .object (.array (tmpl.groups.map (neuJsonEncodeTemplateGroup j casts))))]

def neuJsonEncodeNodeSettingReq (req : NeuJsonNodeSettingReq) : Json :=
  (neuJsonLoadKey j (neuJsonEncodeEntry j casts [("node", .str req.node)]) "params" req.setting).1

/-- A new name that is NULL has no JSON, and the interval is encoded if it is set. -/
def neuJsonEncodeUpdateGroupConfigReq (node group : CStr) (newName : Option CStr)
    (interval : Option Int) : Json :=
  neuJsonEncodeEntry j casts
    ([("node", .str node), ("group", .str group),
      ("new_name", (newName.map NeuJsonValue.str).getD .undefine)] ++
      interval.toList.map fun n => ("interval", .int n))

def ApiMsg.encode (address : CStr → Int) : ApiMsg → Json
  | addNode plugin name => neuJsonEncodeEntry j casts [("plugin", .str plugin), ("name", .str name)]
  | delNode name => neuJsonEncodeEntry j casts [("name", .str name)]
  -- The type of the new name is NEU_JSON_INT, so the pointer is read as the number.
  | updateNode name newName =>
    neuJsonEncodeEntry j casts [("name", .str name), ("new_name", .int (address newName))]
  | nodeCtl node cmd => neuJsonEncodeEntry j casts [("node", .str node), ("cmd", .int cmd)]
  | nodeSetting req => neuJsonEncodeNodeSettingReq j casts req
  | getNodes nodes =>
    neuJsonEncodeEntry j casts [("nodes", .object (.array (nodes.map (encodeNodeEntry j casts))))]
  | addGroup node group interval =>
    neuJsonEncodeEntry j casts [("node", .str node), ("group", .str group), ("interval", .int interval)]
  | delGroup node group => neuJsonEncodeEntry j casts [("node", .str node), ("group", .str group)]
  | updateGroup node group newName interval =>
    neuJsonEncodeUpdateGroupConfigReq j casts node group newName interval
  | getDriverGroup groups =>
    neuJsonEncodeEntry j casts [("groups", .object (.array (groups.map (encodeGroupEntry j casts))))]
  | addTags req =>
    neuJsonEncodeEntry j casts
      [("node", .str req.node), ("group", .str req.group),
        ("tags", .object (neuJsonEncodeTagArray j casts req.tags))]
  | delTags node group tags =>
    neuJsonEncodeEntry j casts
      [("node", .str node), ("group", .str group), ("tags", .object (nameArray j tags))]
  | ndriverMap ndriver driver group =>
    neuJsonEncodeEntry j casts
      [("ndriver", .str ndriver), ("driver", .str driver), ("group", .str group)]
  | template tmpl => neuJsonEncodeTemplate j casts tmpl
  | templateModGroup tmpl group interval =>
    neuJsonEncodeEntry j casts
      [("template", .str tmpl), ("group", .str group), ("interval", .int interval)]
  | templateDelGroup tmpl group =>
    neuJsonEncodeEntry j casts [("template", .str tmpl), ("group", .str group)]
  | templateModTags tmpl group tags =>
    neuJsonEncodeEntry j casts
      [("template", .str tmpl), ("group", .str group),
        ("tags", .object (neuJsonEncodeTagArray j casts tags))]
  | templateDelTags tmpl group tags =>
    neuJsonEncodeEntry j casts
      [("template", .str tmpl), ("group", .str group), ("tags", .object (nameArray j tags))]

/- Decoders. -/

section
variable {α : Type} (first second third : String) (json : Json)

def decodeTwo (build : CStr → CStr → α) : Decoded α := do
  match ← neuJsonDecodeByJson casts (some json) [required first .str, required second .str] with
  | [some (.str a), some (.str b)] => .ok (build a b)
  | _ => .error .failed

def decodeTwoInt (build : CStr → CStr → Int → α) : Decoded α := do
  match ← neuJsonDecodeByJson casts (some json)
    [required first .str, required second .str, required third .int] with
  | [some (.str a), some (.str b), some (.int n)] => .ok (build a b n)
  | _ => .error .failed

def decodeTwoTags (build : CStr → CStr → List NeuJsonTag → α) : Decoded α := do
  match ← neuJsonDecodeByJson casts (some json)
    [required first .str, required second .str, required third .object] with
  | [some (.str a), some (.str b), some (.object object)] => do
    let tags ← neuJsonDecodeTagArrayJson casts object
    if tags.length ≤ 0 then .error .failed else return build a b tags
  | _ => .error .failed

end

def neuJsonDecodeNodeSettingReq (json : Json) : Decoded NeuJsonNodeSettingReq := do
  match ← neuJsonDecodeByJson casts (some json) [required "node" .str] with
  | [some (.str node)] => do
    match ← neuJsonDumpKey j json "params" true with
    | some setting => .ok { node, setting }
    | none => .error .failed
  | _ => .error .failed

/-- There has to be a new name or an interval, and the interval is an integer. -/
def neuJsonDecodeUpdateGroupConfigReq (json : Json) : Decoded ApiMsg := do
  match ← neuJsonDecodeByJson casts (some json)
    [required "node" .str, required "group" .str, optionally "new_name" .str] with
  | [some (.str node), some (.str group), newName] =>
    match jsonObjectGet (some json) "interval" with
    | some (.integer interval) => .ok (.updateGroup node group (textOf newName) (some interval))
    | some _ => .error .failed
    | none =>
      if (textOf newName).isNone then .error .failed
      else .ok (.updateGroup node group (textOf newName) none)
  | _ => .error .failed

/-- A name in an array, and how the decoder ends at anything else. -/
def decodeName (e : DecodeError) (name : Json) : Decoded CStr :=
  match jsonStringValue (some name) with
  | some text => .ok text
  | none => .error e

/-- There has to be a name, and `strdup` reads what is none. -/
def neuJsonDecodeDelTagsReq (json : Json) : Decoded ApiMsg := do
  let req ← decodeTwo casts "node" "group" json Prod.mk
  let names ← arrayAt json "tags"
  if names.length ≤ 0 then .error .failed
  else do
    let tags ← names.mapM (decodeName .crashed)
    return .delTags req.1 req.2 tags

/-- Each name is checked to be a text; there may be none. -/
def neuJsonDecodeTemplateDelTagsReq (json : Json) : Decoded ApiMsg := do
  let req ← decodeTwo casts "template" "group" json Prod.mk
  let names ← arrayAt json "tags"
  let tags ← names.mapM (decodeName .failed)
  return .templateDelTags req.1 req.2 tags

def neuJsonDecodeTemplateGroup (json : Json) : Decoded NeuJsonTemplateGroup := do
  match ← neuJsonDecodeByJson casts (some json)
    [required "name" .str, required "interval" .int, required "tags" .object] with
  | [some (.str name), some (.int interval), some (.object object)] => do
    let tags ← neuJsonDecodeTagArrayJson casts object
    return { name, interval, tags }
  | _ => .error .failed

def neuJsonDecodeTemplateGroupArrayJson : Json → Decoded (List NeuJsonTemplateGroup)
  | .array items => items.mapM (neuJsonDecodeTemplateGroup casts)
  | _ => .error .failed

def neuJsonDecodeTemplateJson (json : Json) : Decoded NeuJsonTemplate := do
  match ← neuJsonDecodeByJson casts (some json)
    [required "name" .str, required "plugin" .str, optionally "groups" .object] with
  | [some (.str name), some (.str plugin), some (.object object)] => do
    let groups ← neuJsonDecodeTemplateGroupArrayJson casts object
    return { name, plugin, groups }
  | [some (.str name), some (.str plugin), none] => return { name, plugin, groups := [] }
  | _ => .error .failed

def decodeDelNode (json : Json) : Decoded ApiMsg := do
  match ← neuJsonDecodeByJson casts (some json) [required "name" .str] with
  | [some (.str name)] => .ok (.delNode name)
  | _ => .error .failed

def decodeNodeCtl (json : Json) : Decoded ApiMsg := do
  match ← neuJsonDecodeByJson casts (some json) [required "node" .str, required "cmd" .int] with
  | [some (.str node), some (.int cmd)] => .ok (.nodeCtl node cmd)
  | _ => .error .failed

def decodeNdriverMap (json : Json) : Decoded ApiMsg := do
  match ← neuJsonDecodeByJson casts (some json)
    [required "ndriver" .str, required "driver" .str, required "group" .str] with
  | [some (.str ndriver), some (.str driver), some (.str group)] =>
    .ok (.ndriverMap ndriver driver group)
  | _ => .error .failed

def ApiType.decode (json : Json) : ApiType → Decoded ApiMsg
  | addNode => decodeTwo casts "plugin" "name" json .addNode
  | delNode => decodeDelNode casts json
  | updateNode => decodeTwo casts "name" "new_name" json .updateNode
  | nodeCtl => decodeNodeCtl casts json
  | nodeSetting => (neuJsonDecodeNodeSettingReq j casts json).map .nodeSetting
  | getNodes => (neuJsonDecodeGetNodesRespJson casts json).map .getNodes
  | addGroup => decodeTwoInt casts "node" "group" "interval" json .addGroup
  | delGroup => decodeTwo casts "node" "group" json .delGroup
  | updateGroup => neuJsonDecodeUpdateGroupConfigReq casts json
  | getDriverGroup => (neuJsonDecodeGetDriverGroupRespJson casts json).map .getDriverGroup
  | addTags =>
    decodeTwoTags casts "node" "group" "tags" json fun node group tags => .addTags { node, group, tags }
  | delTags => neuJsonDecodeDelTagsReq casts json
  | ndriverMap => decodeNdriverMap casts json
  | template => (neuJsonDecodeTemplateJson casts json).map .template
  | templateModGroup => decodeTwoInt casts "template" "group" "interval" json .templateModGroup
  | templateDelGroup => decodeTwo casts "template" "group" json .templateDelGroup
  | templateModTags => decodeTwoTags casts "template" "group" "tags" json .templateModTags
  | templateDelTags => neuJsonDecodeTemplateDelTagsReq casts json

end

end Cpm
