import Cpm.Base.ThingModel
import Cpm.Mqtt.Topic
import Mathlib.Data.List.Pairwise

/-! The dispatch of arriving messages, from `lan_mqtt5_service.c`. -/
namespace Cpm.Mqtt

open Lib Lib.Paths

inductive TopicWildcard where
  | wanThingsubPropertySet
  | wanThingsubPropertyGet
  | wanThingDiscovery
  | wanThingsubDiscovery
  | wanThingsubConfigPush
  | wanEasyhbesThingPluginNodeConfigPush
  | wanThingRestartSet
  | lanThingPluginConfigPush
  | appThingPluginConfigPush
  | appThingPluginReloadConfigPush
  | wanThingPluginConfigPush
  | wanThingPluginNodeActionPush
  | lanThingsubEventPropertyPost
  | lanThingsubServicePropertySet
  | lanThingsubServicePropertySetreply
  | lanThingsubServicePropertyGet
  | lanThingsubServicePropertyGetreply
  | lanThingServicePropertyPostreq
  deriving DecidableEq, Repr

def TopicWildcard.text : TopicWildcard → CStr
  | wanThingsubPropertySet => .lit "wan/+/+/thing/sub/+/+/thing/service/property/set"
  | wanThingsubPropertyGet => .lit "wan/+/+/thing/sub/+/+/thing/service/property/get"
  | wanThingDiscovery => .lit "wan/+/+/thing/discovery"
  | wanThingsubDiscovery => .lit "wan/+/+/thing/sub/+/+/thing/discovery"
  | wanThingsubConfigPush => .lit "wan/+/+/thing/sub/+/+/thing/config/push"
  | wanEasyhbesThingPluginNodeConfigPush => .lit "wan/+/+/easyHbes/+/thing/config/push"
  | wanThingRestartSet => .lit "wan/+/+/thing/restart/set"
  | lanThingPluginConfigPush => .lit "lan/thing/pluginNode/+/config/push"
  | appThingPluginConfigPush => .lit "app/thing/pluginNode/+/config/push"
  | appThingPluginReloadConfigPush => .lit "app/thing/pluginNode/config/push"
  | wanThingPluginConfigPush => .lit "wan/+/+/thing/pluginNode/config/push"
  | wanThingPluginNodeActionPush => .lit "wan/+/+/thing/pluginNode/action/push"
  | lanThingsubEventPropertyPost => .lit "lan/thing/sub/+/+/thing/event/property/post"
  | lanThingsubServicePropertySet => .lit "lan/thing/sub/+/+/thing/service/property/set"
  | lanThingsubServicePropertySetreply => .lit "lan/thing/sub/+/+/thing/service/property/setReply"
  | lanThingsubServicePropertyGet => .lit "lan/thing/sub/+/+/thing/service/property/get"
  | lanThingsubServicePropertyGetreply => .lit "lan/thing/sub/+/+/thing/service/property/getReply"
  | lanThingServicePropertyPostreq => .lit "lan/thing/service/property/postReq"

open TopicWildcard

def topicsToSubscribe : List TopicWildcard :=
  [wanThingsubPropertySet, wanThingsubPropertyGet, lanThingsubEventPropertyPost,
    lanThingsubServicePropertySet, lanThingsubServicePropertySetreply,
    lanThingsubServicePropertyGet, lanThingsubServicePropertyGetreply,
    lanThingServicePropertyPostreq, wanThingDiscovery, wanThingsubDiscovery,
    wanThingsubConfigPush, appThingPluginConfigPush, lanThingPluginConfigPush,
    appThingPluginReloadConfigPush, wanEasyhbesThingPluginNodeConfigPush,
    wanThingPluginConfigPush, wanThingPluginNodeActionPush, wanThingRestartSet]

/-- strtok with "/": runs of separators count as one. -/
def tokens (topic : CStr) : List CStr :=
  ((levels topic.chars).filter (· ≠ [])).map .read

/-- Both results keep the caller's value where the topic has too few tokens. -/
def getPkDnFromThingsubTopic (topic : CStr) (startTokenIndex : Nat) (pk dn : Option CStr) :
    Option CStr × Option CStr :=
  ((tokens topic)[startTokenIndex]? <|> pk, (tokens topic)[startTokenIndex + 1]? <|> dn)

def getDataFromTopic (topic : CStr) (startTokenIndex : Nat) (data : Option CStr) : Option CStr :=
  (tokens topic)[startTokenIndex]? <|> data

/-- The forwarding functions of `manager_adapter_msg.c` with their further arguments. -/
inductive Forwarding where
  | toEsvdriver
  | controlToEsvdriver
  | matterReloadToEsvdriver
  | toAllEsvdevicedriver
  | toPluginNode (pluginNodeId : Option CStr)
  deriving DecidableEq, Repr

structure Handoff where
  forward : Forwarding
  msg : EsvThingModelMsg
  deriving DecidableEq, Repr

/-- A calloc'ed message with the payload of the MQTT message. -/
def thingModelMsg (method : EsvThingModelMsgMethod) (pkDn : Option CStr × Option CStr)
    (payload : List Char) : EsvThingModelMsg where
  method := method
  productKey := pkDn.1
  deviceName := pkDn.2
  msgType := .jsonStringPtr
  msg := payload
  msgLen := payload.length
  pluginId := 0

def noDevice : Option CStr × Option CStr := (some .empty, some .empty)

/-- The branch for the sub-device config push repeats the discovery filter. -/
def messageArrived5 (topicName : CStr) (payload : List Char) : List Handoff :=
  if topicMatchesWildcard topicName wanThingsubPropertySet.text then
    let pkDn := getPkDnFromThingsubTopic topicName 5 none none
    [⟨.toEsvdriver, thingModelMsg .wanSubthingThingServicePropertySet pkDn payload⟩]
  else if topicMatchesWildcard topicName wanThingPluginNodeActionPush.text then
    let pkDn := getPkDnFromThingsubTopic topicName 1 none none
    [⟨.controlToEsvdriver, thingModelMsg .wanSubthingThingPluginNodeActionPush pkDn payload⟩]
  else if topicMatchesWildcard topicName wanThingsubPropertyGet.text then
    let pkDn := getPkDnFromThingsubTopic topicName 5 none none
    [⟨.toEsvdriver, thingModelMsg .wanSubthingThingServicePropertyGet pkDn payload⟩]
  else if topicMatchesWildcard topicName wanThingPluginConfigPush.text then
    let pkDn := getPkDnFromThingsubTopic topicName 1 none none
    [⟨.controlToEsvdriver, thingModelMsg .wanSubthingThingPluginNodeConfigPush pkDn payload⟩]
  else if topicMatchesWildcard topicName appThingPluginConfigPush.text then
    let pluginNodeId := getDataFromTopic topicName 3 none
    [⟨.matterReloadToEsvdriver,
      { thingModelMsg .appThingPluginNodeConfigPush noDevice payload with
        msg := (CStr.read payload).chars
        pluginId := (pluginNodeId.map CStr.atoi).getD 0 }⟩]
  else if topicMatchesWildcard topicName appThingPluginReloadConfigPush.text then
    [⟨.matterReloadToEsvdriver,
      { thingModelMsg .appThingPluginNodeConfigPush noDevice payload with
        msg := (CStr.read payload).chars }⟩]
  else if topicMatchesWildcard topicName wanThingDiscovery.text then
    [⟨.toAllEsvdevicedriver, thingModelMsg .wanThingDiscovery noDevice payload⟩]
  else if topicMatchesWildcard topicName wanThingsubDiscovery.text then
    let pkDn := getPkDnFromThingsubTopic topicName 5 noDevice.1 noDevice.2
    [⟨.toAllEsvdevicedriver, thingModelMsg .wanSubthingThingDiscovery pkDn payload⟩]
  else if topicMatchesWildcard topicName wanThingsubDiscovery.text then
    let pkDn := getPkDnFromThingsubTopic topicName 5 noDevice.1 noDevice.2
    [⟨.toAllEsvdevicedriver, thingModelMsg .wanSubthingThingConfigPush pkDn payload⟩]
  else if topicMatchesWildcard topicName wanEasyhbesThingPluginNodeConfigPush.text then
    let pluginNodeId := getDataFromTopic topicName 4 (some .empty)
    [⟨.toPluginNode pluginNodeId,
      { thingModelMsg .wanEasyhbesThingPluginNodeConfigPush noDevice payload with
        pluginId := (pluginNodeId.map CStr.atoi).getD 0 }⟩]
  else if topicMatchesWildcard topicName wanThingRestartSet.text then
    []
  else if topicMatchesWildcard topicName lanThingsubServicePropertyGet.text then
    let pkDn := getPkDnFromThingsubTopic topicName 3 none none
    [⟨.toEsvdriver, thingModelMsg .lanSubthingThingServicePropertyGet pkDn payload⟩]
  else if topicMatchesWildcard topicName lanThingsubServicePropertySet.text then
    let pkDn := getPkDnFromThingsubTopic topicName 3 none none
    [⟨.toEsvdriver, thingModelMsg .lanSubthingThingServicePropertySet pkDn payload⟩]
  else if topicMatchesWildcard topicName lanThingsubEventPropertyPost.text then
    let pkDn := getPkDnFromThingsubTopic topicName 3 none none
    [⟨.toEsvdriver, thingModelMsg .lanSubthingThingEventPropertyPost pkDn payload⟩]
  else if topicMatchesWildcard topicName lanThingServicePropertyPostreq.text then
    [⟨.toAllEsvdevicedriver, thingModelMsg .lanThingServicePropertyPostreq noDevice payload⟩]
  else []

/-- The method that belongs to a command filter; the other subscriptions carry no command. -/
def TopicWildcard.command : TopicWildcard → Option EsvThingModelMsgMethod
  | wanThingsubPropertySet => some .wanSubthingThingServicePropertySet
  | wanThingsubPropertyGet => some .wanSubthingThingServicePropertyGet
  | wanThingDiscovery => some .wanThingDiscovery
  | wanThingsubDiscovery => some .wanSubthingThingDiscovery
  | wanThingsubConfigPush => some .wanSubthingThingConfigPush
  | wanEasyhbesThingPluginNodeConfigPush => some .wanEasyhbesThingPluginNodeConfigPush
  | appThingPluginConfigPush => some .appThingPluginNodeConfigPush
  | appThingPluginReloadConfigPush => some .appThingPluginNodeConfigPush
  | wanThingPluginConfigPush => some .wanSubthingThingPluginNodeConfigPush
  | wanThingPluginNodeActionPush => some .wanSubthingThingPluginNodeActionPush
  | lanThingsubEventPropertyPost => some .lanSubthingThingEventPropertyPost
  | lanThingsubServicePropertySet => some .lanSubthingThingServicePropertySet
  | lanThingsubServicePropertyGet => some .lanSubthingThingServicePropertyGet
  | lanThingServicePropertyPostreq => some .lanThingServicePropertyPostreq
  | wanThingRestartSet => none
  | lanThingPluginConfigPush => none
  | lanThingsubServicePropertySetreply => none
  | lanThingsubServicePropertyGetreply => none

/-- The message goes to one forwarding function, once, with the method and its payload. -/
def HandedOnce (method : EsvThingModelMsgMethod) (topic : CStr) (payload : List Char) : Prop :=
  ∃ handoff, messageArrived5 topic payload = [handoff] ∧ handoff.msg.method = method ∧
    CStr.read handoff.msg.msg = CStr.read payload ∧ handoff.msg.msgLen = payload.length

theorem subscribed (filter : TopicWildcard) : filter ∈ topicsToSubscribe := by
  cases filter <;> decide

theorem valid_text (filter : TopicWildcard) : ValidFilter filter.text := by
  unfold ValidFilter
  cases filter <;> rw [TopicWildcard.text, CStr.chars_lit] <;> decide

/-- No two subscriptions can match the same topic. -/
theorem filters_clash (f g : TopicWildcard) (distinct : f ≠ g) :
    clash (pattern f.text.chars) (pattern g.text.chars) = true := by
  have ordered : topicsToSubscribe.Pairwise fun f g =>
      clash (pattern f.text.chars) (pattern g.text.chars) = true := by
    rw [← List.pairwise_map (R := fun l m => clash (pattern l) (pattern m) = true)]
    simp only [topicsToSubscribe, List.map_cons, List.map_nil, TopicWildcard.text]
    repeat rw [CStr.chars_lit]
    decide +kernel
  have symmetric : Std.Symm fun f g : TopicWildcard =>
      clash (pattern f.text.chars) (pattern g.text.chars) = true :=
    ⟨fun f g apart => (clash_comm _ _).trans apart⟩
  exact ordered.forall (subscribed f) (subscribed g) distinct

/-- Every subscription ends in a fixed level, so the matcher overlooks nothing. -/
theorem not_overlooked (filter : TopicWildcard) (topic : CStr) :
    ¬ Overlooked (pattern filter.text.chars) (levels topic.chars) := by
  have fixed : (pattern filter.text.chars).getLast? ≠ some .rest ∧
      (pattern filter.text.chars).getLast? ≠ some .any := by
    cases filter <;> rw [TopicWildcard.text, CStr.chars_lit] <;> decide
  rintro (⟨p, -, split, -⟩ | ⟨p, q, split, -, -⟩)
  · exact fixed.1 (by rw [split, List.getLast?_concat])
  · exact fixed.2 (by rw [split, List.getLast?_concat])

theorem matches_text (filter : TopicWildcard) (topic : CStr) :
    topicMatchesWildcard topic filter.text = true ↔ LevelMatch topic filter.text := by
  rw [topicMatchesWildcard_iff_found (valid_text filter), Found, LevelMatch]
  exact and_iff_left (not_overlooked filter topic)

theorem matches_only {filter : TopicWildcard} {topic : CStr}
    (arrived : LevelMatch topic filter.text) (other : TopicWildcard) :
    topicMatchesWildcard topic other.text = decide (other = filter) := by
  by_cases same : other = filter
  · subst same
    simpa using (matches_text other topic).mpr arrived
  · have apart : ¬ LevelMatch topic other.text :=
      clash_sound (filters_clash filter other (Ne.symm same)) arrived
    simpa [same] using mt (matches_text other topic).mp apart

theorem config_push_dropped {topic : CStr} (payload : List Char)
    (arrived : LevelMatch topic wanThingsubConfigPush.text) :
    messageArrived5 topic payload = [] := by
  simp [messageArrived5, matches_only arrived]

theorem handedOnce_of_command {filter : TopicWildcard} {method : EsvThingModelMsgMethod}
    {topic : CStr} (payload : List Char) (command : filter.command = some method)
    (arrived : LevelMatch topic filter.text) (other : filter ≠ wanThingsubConfigPush) :
    HandedOnce method topic payload := by
  have only := matches_only arrived
  unfold HandedOnce messageArrived5
  cases filter <;> simp [TopicWildcard.command] at command other <;> subst command <;>
    simp [only, thingModelMsg]

/-- Dispatch is complete exactly for the topics outside the sub-device config push. -/
theorem messageArrived5_dispatches (topic : CStr) (payload : List Char) :
    (∀ filter ∈ topicsToSubscribe, ∀ method, filter.command = some method →
      LevelMatch topic filter.text → HandedOnce method topic payload) ↔
    ¬ LevelMatch topic wanThingsubConfigPush.text := by
  constructor
  · intro complete arrived
    obtain ⟨handoff, handed, -⟩ :=
      complete wanThingsubConfigPush (subscribed _) _ rfl arrived
    rw [config_push_dropped payload arrived] at handed
    simp at handed
  · intro free filter _ method command arrived
    refine handedOnce_of_command payload command arrived ?_
    rintro rfl
    exact free arrived

theorem messageArrived5_drops_config_push :
    ¬ (∀ filter ∈ topicsToSubscribe, ∀ method, filter.command = some method →
      LevelMatch (.lit "wan/gw/dn/thing/sub/lamp/one/thing/config/push") filter.text →
        HandedOnce method (.lit "wan/gw/dn/thing/sub/lamp/one/thing/config/push")
          "{}".toList) := by
  intro complete
  have arrived : LevelMatch (.lit "wan/gw/dn/thing/sub/lamp/one/thing/config/push")
      wanThingsubConfigPush.text := by
    rw [LevelMatch, TopicWildcard.text, CStr.chars_lit, CStr.chars_lit]
    decide
  obtain ⟨handoff, handed, -⟩ := complete wanThingsubConfigPush (by decide) _ rfl arrived
  rw [config_push_dropped _ arrived] at handed
  cases handed

end Cpm.Mqtt
