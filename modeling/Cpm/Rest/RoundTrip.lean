import Cpm.Lib.Decode
import Cpm.Rest.DecodeConfig
import Cpm.Rest.GetConfig
import Cpm.Rest.TagRoundTrip

/-! The exported document of a gateway, read by the decoder that imports it. -/
namespace Cpm

open Lib Lib.Dialogue

def NEU_ERR_NODE_SETTING_NOT_FOUND : Int := 2005

/- Gateways as the handlers configure them. -/

/-- A text that the handlers keep for the `params` of a request. -/
abbrev Params (j : Jansson) :=
  {text : CStr // ∃ value, j.dumps (.object [("params", value)]) = some text}

structure NodeConfig (j : Jansson) where
  info : NeuRespNodeInfo
  setting : Option (Params j)
  legible : j.utf8 info.node.val = true ∧ j.utf8 info.plugin.val = true

structure SubscriptionConfig (j : Jansson) where
  driver : CharArray NEU_NODE_NAME_LEN
  group : CharArray NEU_GROUP_NAME_LEN
  params : Option (Params j)
  legible : j.utf8 driver.val = true ∧ j.utf8 group.val = true

structure AppConfig (j : Jansson) where
  node : NodeConfig j
  subscriptions : List (SubscriptionConfig j)

structure TagConfig (j : Jansson) (casts : CastOps) where
  tag : NeuDatatag
  plain : PlainTag j (jsonTagOf tag)
  created : Created casts tag

structure GroupConfig (j : Jansson) (casts : CastOps) where
  info : NeuRespDriverGroupInfo
  tags : List (TagConfig j casts)
  legible : j.utf8 info.driver.val = true ∧ j.utf8 info.group.val = true

structure GatewayConfig (j : Jansson) (casts : CastOps) where
  apps : List (AppConfig j)
  drivers : List (NodeConfig j)
  groups : List (GroupConfig j casts)
  someNode : apps ≠ [] ∨ drivers ≠ []

section
variable {j : Jansson} {casts : CastOps}

def SubscriptionConfig.info (subscription : SubscriptionConfig j) (app : CharArray NEU_NODE_NAME_LEN) :
    NeuRespSubscribeInfo :=
  ⟨app, subscription.driver, subscription.group, subscription.params.map Subtype.val⟩

def AppConfig.infos (app : AppConfig j) : List NeuRespSubscribeInfo :=
  app.subscriptions.map fun subscription => subscription.info app.node.info.node

def NodeConfig.settingAnswer (node : NodeConfig j) : RespData :=
  match node.setting with
  | some text => .getNodeSetting node.info.node text.val
  | none => .error NEU_ERR_NODE_SETTING_NOT_FOUND 0

def GroupConfig.exchange (group : GroupConfig j casts) : RestReq × RespData :=
  (tagReq group.info, .getTag (group.tags.map TagConfig.tag))

def AppConfig.exchange (app : AppConfig j) : RestReq × RespData :=
  (subscriptionReq app.node.info, .getSubscribeGroup app.infos)

def NodeConfig.exchange (node : NodeConfig j) : RestReq × RespData :=
  (settingReq node.info, node.settingAnswer)

def SameTags (group : GroupConfig j casts) (entry : NeuJsonAddTagsReq) : Prop :=
  entry.node = group.info.driver.val ∧ entry.group = group.info.group.val ∧
    List.Forall₂ (fun tag read => SameTag casts tag.tag read) group.tags entry.tags

namespace GatewayConfig

variable (c : GatewayConfig j casts)

def nodes : List (NodeConfig j) := c.apps.map AppConfig.node ++ c.drivers

def exchanges : List (RestReq × RespData) :=
  (.getNode .app, .getNode (c.apps.map fun app => app.node.info)) ::
  (.getNode .driver, .getNode (c.drivers.map NodeConfig.info)) ::
  (.getDriverGroup, .getDriverGroup (c.groups.map GroupConfig.info)) ::
  (c.groups.map GroupConfig.exchange ++ (c.apps.map AppConfig.exchange ++
    c.nodes.map NodeConfig.exchange))

def answers : List RespData := c.exchanges.map Prod.snd

/-- Nodes, groups, tags, subscriptions and settings are those of the gateway, in its order. -/
structure SameConfig (request : NeuJsonGlobalConfigReq) : Prop where
  nodes : request.nodes = c.nodes.map fun node => ⟨node.info.node.val, node.info.plugin.val⟩
  groups : request.groups = c.groups.map fun group =>
    ⟨group.info.driver.val, group.info.group.val, group.info.interval.toNat, group.info.tagCount.toNat⟩
  tags : List.Forall₂ SameTags (c.groups.filter fun group => !group.tags.isEmpty) request.tags
  subscriptions : request.subscriptions = c.apps.flatMap fun app =>
    app.subscriptions.map fun subscription =>
      ⟨subscription.group.val, app.node.info.node.val, subscription.driver.val,
        subscription.params.map Subtype.val⟩
  settings : request.settings = c.nodes.filterMap fun node =>
    node.setting.map fun text => ⟨node.info.node.val, text.val⟩

/-- The static tags whose values come back. -/
def Restorable : Prop :=
  ∀ group ∈ c.groups, ∀ tag ∈ group.tags, restorable j casts tag.tag = true

def RoundTrips : Prop :=
  ∃ w document request, getGlobalConfig j casts (allSent c.answers) = some w ∧
    w.replies = [.ok document] ∧ neuJsonDecodeGlobalConfigReq casts j document = .ok request ∧
    c.SameConfig request

end GatewayConfig

/- The export. -/

theorem flatMap_nothing {α β : Type} (items : List α) :
    items.flatMap (fun _ => ([] : List β)) = [] :=
  List.flatMap_eq_nil_iff.2 fun _ _ => rfl

theorem flatMap_filter {α β : Type} {items : List α} {keep : α → Bool} {f : α → β}
    {each : α → List β} (single : ∀ item, each item = if keep item then [f item] else []) :
    items.flatMap each = (items.filter keep).map f := by
  induction items with
  | nil => rfl
  | cons item rest ih =>
    rw [List.flatMap_cons, ih, single, List.filter_cons]
    split <;> rfl

theorem flatMap_kept {α β : Type} {items : List α} {keep : α → Bool} {f : α → List β}
    (nothing : ∀ item, keep item = false → f item = []) :
    (items.filter keep).flatMap f = items.flatMap f := by
  induction items with
  | nil => rfl
  | cons item rest ih =>
    rw [List.filter_cons, List.flatMap_cons]
    cases kept : keep item with
    | false => simpa [nothing item kept] using ih
    | true => simpa using ih

section
variable (c : GatewayConfig j casts)

theorem exchanges_plan : c.exchanges.map Prod.fst =
    getPlan (c.apps.map fun app => app.node.info) (c.drivers.map NodeConfig.info)
      (c.groups.map GroupConfig.info) := by
  simp [GatewayConfig.exchanges, GatewayConfig.nodes, getPlan]
  rfl

theorem nodesOf_exchanges : nodesOf j casts c.exchanges =
    c.nodes.map fun node => nodeJson j casts node.info := by
  simp [nodesOf, GatewayConfig.exchanges, GatewayConfig.nodes, List.flatMap_map, flatMap_nothing,
    GroupConfig.exchange, AppConfig.exchange, NodeConfig.exchange, tagReq, subscriptionReq, settingReq]
  rfl

theorem groupsOf_exchanges : groupsOf j casts c.exchanges =
    c.groups.map fun group => groupJson j casts group.info := by
  simp [groupsOf, GatewayConfig.exchanges, GatewayConfig.nodes, List.flatMap_map, flatMap_nothing,
    GroupConfig.exchange, AppConfig.exchange, NodeConfig.exchange, tagReq, subscriptionReq, settingReq]

def GroupConfig.entry (group : GroupConfig j casts) : Json :=
  (tagsJson j casts group.info.driver.val group.info.group.val (group.tags.map TagConfig.tag)).1

theorem tagsOf_exchanges : tagsOf j casts c.exchanges =
    (c.groups.filter fun group => !group.tags.isEmpty).map GroupConfig.entry := by
  have ofGroups : tagsOf j casts c.exchanges =
      c.groups.flatMap fun group => tagsOf j casts [group.exchange] := by
    simp [tagsOf, GatewayConfig.exchanges, List.flatMap_map, flatMap_nothing, GroupConfig.exchange,
      AppConfig.exchange, NodeConfig.exchange, tagReq, subscriptionReq, settingReq]
  rw [ofGroups]
  apply flatMap_filter
  intro group
  cases tags : group.tags with
  | nil => simp [tagsOf, GroupConfig.exchange, tagReq, tags]
  | cons tag rest => simp [tagsOf, GroupConfig.exchange, tagReq, GroupConfig.entry, tags]

def AppConfig.entry (casts : CastOps) (app : AppConfig j) : Json :=
  (subscriptionsJson j casts app.node.info.node.val app.infos).1

theorem subscriptionsOf_exchanges : subscriptionsOf j casts c.exchanges =
    (c.apps.filter fun app => !app.subscriptions.isEmpty).map (AppConfig.entry casts) := by
  have ofApps : subscriptionsOf j casts c.exchanges =
      c.apps.flatMap fun app => subscriptionsOf j casts [app.exchange] := by
    simp [subscriptionsOf, GatewayConfig.exchanges, List.flatMap_map, flatMap_nothing,
      GroupConfig.exchange, AppConfig.exchange, NodeConfig.exchange, tagReq, subscriptionReq,
        settingReq]
  rw [ofApps]
  apply flatMap_filter
  intro app
  cases subscriptions : app.subscriptions with
  | nil => simp [subscriptionsOf, AppConfig.exchange, subscriptionReq, AppConfig.infos, subscriptions]
  | cons subscription rest =>
    simp [subscriptionsOf, AppConfig.exchange, subscriptionReq, AppConfig.entry, AppConfig.infos,
      subscriptions]

def NodeConfig.kept (node : NodeConfig j) : Option (CStr × Params j) :=
  node.setting.map fun text => (node.info.node.val, text)

def settingEntry (j : Jansson) (casts : CastOps) (kept : CStr × Params j) : Json :=
  (settingJson j casts kept.1 kept.2.val).1

theorem settingsOf_exchanges : settingsOf j casts c.exchanges =
    (c.nodes.filterMap NodeConfig.kept).map (settingEntry j casts) := by
  have ofNodes : settingsOf j casts c.exchanges =
      c.nodes.flatMap fun node => settingsOf j casts [node.exchange] := by
    simp [settingsOf, GatewayConfig.exchanges, List.flatMap_map, flatMap_nothing,
      GroupConfig.exchange, AppConfig.exchange, NodeConfig.exchange, tagReq, subscriptionReq,
        settingReq]
  rw [List.map_filterMap, List.filterMap_eq_flatMap_toList, ofNodes]
  congr 1
  funext node
  cases setting : node.setting with
  | none =>
    simp [settingsOf, NodeConfig.exchange, settingReq, NodeConfig.settingAnswer, NodeConfig.kept,
      setting]
  | some text =>
    simp [settingsOf, NodeConfig.exchange, settingReq, NodeConfig.settingAnswer, NodeConfig.kept,
      settingEntry, setting]

end

def Prints (j : Jansson) : Prop := ∀ value text, j.dumps value = some text → j.loads text = some value

theorem params_read (prints : Prints j) (text : Params j) :
    ∃ value, j.loads text.val = some (.object [("params", value)]) ∧
      j.dumps (.object [("params", value)]) = some text.val := by
  obtain ⟨text, value, printed⟩ := text
  exact ⟨value, prints _ _ printed, printed⟩

section
variable (prints : Prints j) (c : GatewayConfig j casts)
include prints

theorem setting_good (node : NodeConfig j) {apps drivers : List NeuRespNodeInfo}
    {groups : List NeuRespDriverGroupInfo} :
    GetGood j apps drivers groups node.exchange.1 node.exchange.2 := by
  cases setting : node.setting with
  | none =>
    have answer : node.settingAnswer = .error NEU_ERR_NODE_SETTING_NOT_FOUND 0 := by
      rw [NodeConfig.settingAnswer, setting]
    rw [NodeConfig.exchange, answer]
    exact ⟨.inr ⟨_, _, rfl⟩, trivial⟩
  | some text =>
    have answer : node.settingAnswer = .getNodeSetting node.info.node text.val := by
      rw [NodeConfig.settingAnswer, setting]
    obtain ⟨value, loaded, _⟩ := params_read prints text
    rw [NodeConfig.exchange, answer]
    refine ⟨.inl ⟨_, rfl⟩, ?_⟩
    change (jsonObjectGet (j.loads text.val) "params").isSome = true
    rw [loaded]
    rfl

theorem exchanges_good : ∀ exchange ∈ c.exchanges,
    GetGood j (c.apps.map fun app => app.node.info) (c.drivers.map NodeConfig.info)
      (c.groups.map GroupConfig.info) exchange.1 exchange.2 := by
  refine List.forall_mem_cons.2 ⟨⟨rfl, trivial⟩, List.forall_mem_cons.2 ⟨⟨rfl, trivial⟩,
    List.forall_mem_cons.2 ⟨⟨rfl, trivial⟩, ?_⟩⟩⟩
  refine List.forall_mem_append.2 ⟨?_, List.forall_mem_append.2 ⟨?_, ?_⟩⟩
  · refine List.forall_mem_map.2 fun group _ => ⟨.inl ⟨_, rfl⟩, ?_⟩
    cases tags : group.tags with
    | nil => simp [GroupConfig.exchange, tags, GetAllowed, tagReq]
    | cons tag rest => simpa [GroupConfig.exchange, tags, GetAllowed, tagReq] using group.legible
  · refine List.forall_mem_map.2 fun app _ => ⟨⟨_, rfl⟩, ?_⟩
    cases subscriptions : app.subscriptions with
    | nil => simp [AppConfig.exchange, AppConfig.infos, subscriptions, GetAllowed, subscriptionReq]
    | cons subscription rest =>
      simpa [AppConfig.exchange, AppConfig.infos, subscriptions, GetAllowed, subscriptionReq]
        using app.node.legible.1
  · exact List.forall_mem_map.2 fun node _ => setting_good prints node

theorem gateway_exported : ∃ w, getGlobalConfig j casts (allSent c.answers) = some w ∧
    w.replies = [.ok (document j casts c.exchanges)] := by
  have good : List.Forall₂ (GetGood j (c.apps.map fun app => app.node.info)
      (c.drivers.map NodeConfig.info) (c.groups.map GroupConfig.info))
      (getPlan (c.apps.map fun app => app.node.info) (c.drivers.map NodeConfig.info)
        (c.groups.map GroupConfig.info)) c.answers := by
    rw [← exchanges_plan, GatewayConfig.answers, List.forall₂_map_left_iff,
      List.forall₂_map_right_iff, List.forall₂_same]
    exact exchanges_good prints c
  obtain ⟨w, ran, finished⟩ := getGlobalConfig_finished casts good
  have world : w = _ := finished
  refine ⟨w, ran, ?_⟩
  have pairs : (c.exchanges.map Prod.fst).zip (c.exchanges.map Prod.snd) = c.exchanges :=
    (List.zip_of_prod rfl rfl).symm
  rw [world, ← exchanges_plan, GatewayConfig.answers, pairs]

end

/- The import. -/

section
variable (past : List (RestReq × RespData))

theorem document_nodes : arrayAt (document j casts past) "nodes" = .ok (nodesOf j casts past) := rfl

theorem document_groups : arrayAt (document j casts past) "groups" = .ok (groupsOf j casts past) := rfl

theorem document_tags : arrayAt (document j casts past) "tags" = .ok (tagsOf j casts past) := rfl

theorem document_subscriptions :
    arrayAt (document j casts past) "subscriptions" = .ok (subscriptionsOf j casts past) := rfl

theorem document_settings :
    arrayAt (document j casts past) "settings" = .ok (settingsOf j casts past) := rfl

end

theorem node_decoded (node : NodeConfig j) : decodeNode casts (nodeJson j casts node.info) =
    .ok ⟨node.info.node.val, node.info.plugin.val⟩ := by
  simp [nodeJson, neuJsonEncodeEntry, neuJsonEncodeField, encodeObject, elementJson, jsonString,
    node.legible, setMember, decodeNode, neuJsonDecodeByJson, decodeObject,
    jsonObjectGet, List.lookup_cons]

theorem group_decoded (group : GroupConfig j casts) : decodeGroup casts (groupJson j casts group.info) =
    .ok ⟨group.info.driver.val, group.info.group.val, group.info.interval.toNat,
      group.info.tagCount.toNat⟩ := by
  simp [groupJson, neuJsonEncodeEntry, neuJsonEncodeField, encodeObject, elementJson, jsonString,
    group.legible, setMember, decodeGroup, neuJsonDecodeByJson, decodeObject,
    jsonObjectGet, List.lookup_cons]

theorem groupEntry_decoded (group : GroupConfig j casts) : decodeAddTagsReq casts group.entry =
    ((group.tags.map fun tag => neuJsonEncodeTag j casts (jsonTagOf tag.tag)).mapM
      fun item => neuJsonDecodeTagJson casts (some item)).map
        fun tags => ⟨group.info.driver.val, group.info.group.val, tags⟩ := by
  simp [GroupConfig.entry, tagsJson, neuJsonEncodeGetTagsResp, neuJsonEncodeField, encodeObject,
    elementJson, jsonString, group.legible, setMember, setNamed, decodeAddTagsReq,
    neuJsonDecodeByJson, decodeObject, jsonObjectGet, List.lookup_cons, neuJsonDecodeTagArrayJson]
  rfl

theorem groupEntry_restored (laws : CastLaws casts) {group : GroupConfig j casts}
    (good : ∀ tag ∈ group.tags, restorable j casts tag.tag = true) :
    ∃ entry, decodeAddTagsReq casts group.entry = .ok entry ∧ SameTags group entry := by
  obtain ⟨tags, decoded, same⟩ := Decode.mapM_each
    (fun item => neuJsonDecodeTagJson casts (some item))
    fun tag inside => tag_restored laws tag.plain tag.created (good tag inside)
  refine ⟨⟨group.info.driver.val, group.info.group.val, tags⟩, ?_, rfl, rfl, same⟩
  rw [groupEntry_decoded, decoded]
  rfl

theorem groupEntry_restorable (laws : CastLaws casts) {group : GroupConfig j casts}
    {entry : NeuJsonAddTagsReq} (ok : decodeAddTagsReq casts group.entry = .ok entry) :
    ∀ tag ∈ group.tags, restorable j casts tag.tag = true := by
  intro tag inside
  rw [groupEntry_decoded] at ok
  obtain ⟨tags, decoded, _⟩ := Decode.bind_ok ok
  obtain ⟨read, accepted⟩ := Decode.mapM_member decoded (List.mem_map_of_mem inside)
  by_contra lost
  have refused := tag_refused laws tag.plain tag.created (Bool.eq_false_iff.2 lost)
  rw [refused] at accepted
  cases accepted

theorem appEntry_groups (app : AppConfig j) :
    arrayAt (app.entry casts) "groups" = .ok (app.infos.map (subscribedJson j)) := by
  simp [AppConfig.entry, subscriptionsJson, setNamed, neuJsonEncodeField, encodeObject, elementJson,
    jsonString, app.node.legible, setMember, arrayAt, jsonObjectGet]

theorem appEntry_app (app : AppConfig j) :
    jsonObjectGet (some (app.entry casts)) "app" = some (.string app.node.info.node.val) := by
  simp [AppConfig.entry, subscriptionsJson, setNamed, neuJsonEncodeField, encodeObject, elementJson,
    jsonString, app.node.legible, setMember, jsonObjectGet, List.lookup_cons]

def AppConfig.requests (app : AppConfig j) : List NeuJsonSubscribeReq :=
  app.subscriptions.map fun subscription =>
    ⟨subscription.group.val, app.node.info.node.val, subscription.driver.val,
      subscription.params.map Subtype.val⟩

section
variable (prints : Prints j)
include prints

theorem subscription_decoded (subscription : SubscriptionConfig j) (app : CStr)
    (node : CharArray NEU_NODE_NAME_LEN) :
    decodeSubscribeReq casts j app (subscribedJson j (subscription.info node)) =
      .ok ⟨subscription.group.val, app, subscription.driver.val,
        subscription.params.map Subtype.val⟩ := by
  cases params : subscription.params with
  | none =>
    simp [subscribedJson, SubscriptionConfig.info, params, jsonString, subscription.legible,
      setMember, decodeSubscribeReq, neuJsonDecodeByJson, decodeObject, jsonObjectGet,
      List.lookup_cons, neuJsonDumpKey]
  | some text =>
    obtain ⟨value, loaded, printed⟩ := params_read prints text
    simp [subscribedJson, SubscriptionConfig.info, params, jsonString, subscription.legible, loaded,
      setMember, decodeSubscribeReq, neuJsonDecodeByJson, decodeObject, jsonObjectGet,
      List.lookup_cons, neuJsonDumpKey, printed]

theorem appEntry_decoded (app : AppConfig j) :
    decodeSubscription casts j (app.entry casts) = .ok app.requests := by
  have groups : app.infos.map (subscribedJson j) = app.subscriptions.map fun subscription =>
      subscribedJson j (subscription.info app.node.info.node) := List.map_map
  simp only [decodeSubscription, appEntry_app, appEntry_groups, groups, decoded_bind, jsonStringValue]
  exact Decode.mapM_map fun subscription _ => subscription_decoded prints subscription _ _

theorem subscriptions_decoded (c : GatewayConfig j casts) :
    neuJsonDecodeGlobalConfigReqSubscriptions casts j (document j casts c.exchanges) =
      .ok (c.apps.flatMap AppConfig.requests) := by
  have arrays : ((c.apps.filter fun app => !app.subscriptions.isEmpty).map (AppConfig.entry casts)).mapM
      (fun entry => arrayAt entry "groups") = .ok _ :=
    Decode.mapM_map fun app _ => appEntry_groups app
  have entries : ((c.apps.filter fun app => !app.subscriptions.isEmpty).map (AppConfig.entry casts)).mapM
      (decodeSubscription casts j) = .ok _ :=
    Decode.mapM_map fun app _ => appEntry_decoded prints app
  rw [neuJsonDecodeGlobalConfigReqSubscriptions, document_subscriptions, decoded_bind,
    subscriptionsOf_exchanges, arrays, decoded_bind, entries, decoded_bind, ← List.flatMap_def]
  exact congrArg Except.ok (flatMap_kept fun app empty => by
    simpa [AppConfig.requests] using empty)

theorem setting_decoded (kept : CStr × Params j) (legible : j.utf8 kept.1 = true) :
    decodeSetting j (settingEntry j casts kept) = .ok ⟨kept.1, kept.2.val⟩ := by
  obtain ⟨value, loaded, printed⟩ := params_read prints kept.2
  simp [settingEntry, settingJson, neuJsonLoadKey, loaded, neuJsonEncodeEntry, neuJsonEncodeField,
    encodeObject, elementJson, jsonString, legible, setMember, decodeSetting,
    jsonObjectGet, List.lookup_cons, jsonStringValue, neuJsonDumpKey, printed]

theorem settings_decoded (c : GatewayConfig j casts) :
    neuJsonDecodeGlobalConfigReqSettings j (document j casts c.exchanges) =
      .ok (c.nodes.filterMap fun node => node.setting.map fun text => ⟨node.info.node.val, text.val⟩) := by
  have entries : ((c.nodes.filterMap NodeConfig.kept).map (settingEntry j casts)).mapM
      (decodeSetting j) =
        .ok ((c.nodes.filterMap NodeConfig.kept).map fun kept => ⟨kept.1, kept.2.val⟩) := by
    apply Decode.mapM_map
    intro kept inside
    obtain ⟨node, _, held⟩ := List.mem_filterMap.1 inside
    obtain ⟨text, _, rfl⟩ := Option.map_eq_some_iff.1 held
    exact setting_decoded prints _ node.legible.1
  rw [neuJsonDecodeGlobalConfigReqSettings, document_settings, decoded_bind, settingsOf_exchanges,
    entries, List.map_filterMap]
  congr 1
  apply List.filterMap_congr
  intro node _
  rw [NodeConfig.kept, Option.map_map]
  rfl

end

theorem nodes_decoded (c : GatewayConfig j casts) :
    neuJsonDecodeGetNodesRespJson casts (document j casts c.exchanges) =
      .ok (c.nodes.map fun node => ⟨node.info.node.val, node.info.plugin.val⟩) := by
  have some : c.nodes ≠ [] := by
    intro empty
    obtain ⟨apps, drivers⟩ := List.append_eq_nil_iff.1 empty
    rcases c.someNode with app | driver
    · exact app (List.map_eq_nil_iff.1 apps)
    · exact driver drivers
  have positive : ¬ (nodesOf j casts c.exchanges).length ≤ 0 := by
    rw [nodesOf_exchanges, List.length_map]
    exact Nat.not_le.2 (List.length_pos_iff.2 some)
  rw [neuJsonDecodeGetNodesRespJson, document_nodes, decoded_bind, if_neg positive, nodesOf_exchanges]
  exact Decode.mapM_map fun node _ => node_decoded node

theorem groups_decoded (c : GatewayConfig j casts) :
    neuJsonDecodeGetDriverGroupRespJson casts (document j casts c.exchanges) =
      .ok (c.groups.map fun group => ⟨group.info.driver.val, group.info.group.val,
        group.info.interval.toNat, group.info.tagCount.toNat⟩) := by
  rw [neuJsonDecodeGetDriverGroupRespJson, document_groups, decoded_bind, groupsOf_exchanges]
  exact Decode.mapM_map fun group _ => group_decoded group

section
variable (laws : CastLaws casts) (c : GatewayConfig j casts)
include laws

theorem tags_decoded (good : c.Restorable) :
    ∃ tags, neuJsonDecodeGlobalConfigReqTags casts (document j casts c.exchanges) = .ok tags ∧
      List.Forall₂ SameTags (c.groups.filter fun group => !group.tags.isEmpty) tags := by
  rw [neuJsonDecodeGlobalConfigReqTags, document_tags, decoded_bind, tagsOf_exchanges]
  apply Decode.mapM_each
  intro group inside
  exact groupEntry_restored laws (good group (List.mem_of_mem_filter inside))

theorem tags_restorable {tags : List NeuJsonAddTagsReq}
    (ok : neuJsonDecodeGlobalConfigReqTags casts (document j casts c.exchanges) = .ok tags) :
    c.Restorable := by
  intro group inside tag member
  rw [neuJsonDecodeGlobalConfigReqTags, document_tags, decoded_bind, tagsOf_exchanges] at ok
  have kept : group ∈ c.groups.filter fun group => !group.tags.isEmpty := by
    apply List.mem_filter.2
    exact ⟨inside, by simpa using List.ne_nil_of_mem member⟩
  obtain ⟨entry, decoded⟩ := Decode.mapM_member ok (List.mem_map_of_mem kept)
  exact groupEntry_restorable laws decoded tag member

end

end

/-- An export can be imported exactly when no static value is lost in it. -/
theorem export_imported (j : Jansson) (casts : CastOps) (c : GatewayConfig j casts)
    (prints : Prints j) (laws : CastLaws casts) : c.RoundTrips ↔ c.Restorable := by
  obtain ⟨w, ran, replies⟩ := gateway_exported prints c
  constructor
  · rintro ⟨w', doc, request, ran', replies', decoded, _⟩
    have world : w' = w := Option.some.inj (ran'.symm.trans ran)
    rw [world, replies] at replies'
    cases replies'
    obtain ⟨nodes, _, decoded⟩ := Decode.bind_ok decoded
    obtain ⟨groups, _, decoded⟩ := Decode.bind_ok decoded
    obtain ⟨tags, accepted, _⟩ := Decode.bind_ok decoded
    exact tags_restorable laws c accepted
  · intro good
    obtain ⟨tags, accepted, same⟩ := tags_decoded laws c good
    refine ⟨w, _, ⟨_, _, tags, _, _⟩, ran, replies, ?_, ⟨rfl, rfl, same, rfl, rfl⟩⟩
    rw [neuJsonDecodeGlobalConfigReq, nodes_decoded, decoded_bind, groups_decoded, decoded_bind,
      accepted, decoded_bind, subscriptions_decoded prints, decoded_bind, settings_decoded prints]
    rfl

def plainCasts : CastOps :=
  { noCasts with ofFloat := fun f => f % 2 ^ 64, toFloat := fun d => d % 2 ^ 32 }

theorem plainCasts_laws : CastLaws plainCasts where
  wide f := Nat.mod_lt f (by decide)
  exact f small _ := by
    change f % 2 ^ 64 % 2 ^ 32 = f
    omega

theorem smallJansson_prints : Prints smallJansson := by
  intro value text printed
  simp only [smallJansson] at printed
  split at printed
  · cases printed
    rfl
  · cases printed

def mqttConfig : NodeConfig smallJansson where
  info := mqttNode
  setting := some ⟨paramsText, .integer 1, rfl⟩
  legible := ⟨rfl, rfl⟩

def modbusConfig : NodeConfig smallJansson where
  info := modbusInfo
  setting := none
  legible := ⟨rfl, rfl⟩

def staticTag (type : NeuType) (value : NeuJsonValue) : NeuDatatag :=
  { modbusTag with
    attributes := NEU_ATTRIBUTE_READ ||| NEU_ATTRIBUTE_STATIC
    type
    staticValue := staticValueOf plainCasts type value }

theorem bytewise_on : Bytewise (.lit "on") :=
  List.forall_mem_cons.2 ⟨by decide, List.forall_mem_cons.2 ⟨by decide, List.forall_mem_nil _⟩⟩

def stringConfig : TagConfig smallJansson plainCasts where
  tag := staticTag .string (.str (.lit "on"))
  plain := ⟨rfl, rfl, ⟨_, rfl, rfl⟩, by decide, rfl⟩
  created _ := ⟨.str (.lit "on"), rfl, fun text same => by cases same; exact bytewise_on⟩

def bytesConfig : TagConfig smallJansson plainCasts where
  tag := staticTag .bytes (.str (.lit "on"))
  plain := ⟨rfl, rfl, ⟨_, rfl, rfl⟩, by decide, rfl⟩
  created _ := ⟨.str (.lit "on"), rfl, fun text same => by cases same; exact bytewise_on⟩

theorem a_fits : (CStr.lit "a").strlen < NEU_GROUP_NAME_LEN := by decide

def smallGateway (tags : List (TagConfig smallJansson plainCasts)) :
    GatewayConfig smallJansson plainCasts where
  apps := [⟨mqttConfig, [⟨modbusInfo.node, ⟨.lit "a", a_fits⟩, none, rfl, rfl⟩]⟩]
  drivers := [modbusConfig]
  groups := [⟨modbusGroup ⟨.lit "a", a_fits⟩, tags, rfl, rfl⟩]
  someNode := .inl (List.cons_ne_nil _ _)

theorem export_imported_small : (smallGateway [stringConfig]).RoundTrips :=
  (export_imported smallJansson plainCasts (smallGateway [stringConfig]) smallJansson_prints
    plainCasts_laws).2 (List.forall_mem_singleton.2 (List.forall_mem_singleton.2 rfl))

/-- The check takes a text for a static tag of bytes, which is not stored; the export then has no
value for the tag, and no part of it can be imported. -/
theorem static_bytes_refused :
    Prints smallJansson ∧ CastLaws plainCasts ∧ ¬ (smallGateway [bytesConfig]).RoundTrips ∧
    ∃ w doc, getGlobalConfig smallJansson plainCasts (allSent (smallGateway [bytesConfig]).answers) =
        some w ∧ w.replies = [.ok doc] ∧
      neuJsonDecodeGlobalConfigReq plainCasts smallJansson doc = .error .failed := by
  have refused : ∃ w doc,
      getGlobalConfig smallJansson plainCasts (allSent (smallGateway [bytesConfig]).answers) = some w ∧
      w.replies = [.ok doc] ∧
      neuJsonDecodeGlobalConfigReq plainCasts smallJansson doc = .error .failed :=
    ⟨_, _, rfl, rfl, rfl⟩
  refine ⟨smallJansson_prints, plainCasts_laws, ?_, refused⟩
  rintro ⟨w', doc', request, ran', replies', decoded, _⟩
  obtain ⟨w, doc, ran, replies, failed⟩ := refused
  have world : w = w' := Option.some.inj (ran.symm.trans ran')
  rw [world, replies'] at replies
  cases replies
  rw [decoded] at failed
  cases failed

end Cpm
