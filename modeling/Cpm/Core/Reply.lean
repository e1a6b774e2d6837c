import Cpm.Core.Forward
import Cpm.Mqtt.Service

/-! The answer to a configuration reload: one reply that repeats the request's identifiers
and tells whether the new configuration was taken. -/
namespace Cpm

open Lib NeuManager

def publication : Event → Option (CStr × PublishedMsg)
  | .publish topic payload => some (topic, payload)
  | .plugin _ _ => none

def publications (before after : NeuManager) : List (CStr × PublishedMsg) :=
  (newEvents before after).filterMap publication

def ConfigAccepted (before after : NeuManager) : Prop :=
  ∃ node text, Event.plugin node (.setting text 0) ∈ newEvents before after

def requestConfigType (recvMsg : Option Json) : Option Int :=
  match jsonObjectGet (jsonObjectGet recvMsg "params") "configType" with
  | some (.integer value) => some value
  | _ => none

structure Answers (recvMsg : Option Json) (reply : Json) (taken : Prop) : Prop where
  transId : ∃ transId, requestTransId recvMsg = some transId ∧
    jsonObjectGet (some reply) "transId" = some (.string transId)
  configType : ∃ configType, requestConfigType recvMsg = some configType ∧
    jsonObjectGet (jsonObjectGet (some reply) "data") "configType" = some (.integer configType)
  pluginNodeId : ∃ pluginNodeId, requestPluginNodeId recvMsg = some pluginNodeId ∧
    jsonObjectGet (jsonObjectGet (jsonObjectGet (some reply) "data") "configResult")
      "pluginNodeId" = some (.string pluginNodeId)
  result : ∃ result, (result = 0 ↔ taken) ∧
    jsonObjectGet (jsonObjectGet (jsonObjectGet (some reply) "data") "configResult")
      "result" = some (.integer result)

/-- The request ran to its end and published one document, its answer. -/
def Replied (recvMsg : Option Json) (manager : NeuManager)
    (outcome : Option (NeuManager × Int)) : Prop :=
  ∃ after rv topic reply, outcome = some (after, rv) ∧
    publications manager after = [(topic, .dumped reply)] ∧
    Answers recvMsg reply (ConfigAccepted manager after)

/-- The request names its transaction and the row of a registered node, and asks for
type 0. -/
structure Addressed (w : World) (manager : NeuManager) (recvMsg : Option Json)
    (id nodeName : CStr) (adapter : NeuAdapter) : Prop where
  transId : (requestTransId recvMsg).isSome
  configType : requestConfigType recvMsg = some 0
  pluginNodeId : requestPluginNodeId recvMsg = some id
  row : esvPersisterQueryDeviceNodeNameByNodeId w.db (some id) = some (some nodeName)
  registered : manager.neuNodeManagerFind nodeName = some adapter

theorem lookup_further {further : List (String × Json)} {key : String} {value : Json}
    (other : further.lookup key = none) : (further ++ [(key, value)]).lookup key = some value := by
  rw [List.lookup_append, other]
  simp

/-- Whatever the request asks, the config type in the reply is the one given. -/
theorem pushReply_answers {recvMsg : Option Json} {uuid transId : CStr} {code : Json}
    {configType : Int} {further : List (String × Json)} {result : Int} {pluginNodeId : CStr}
    {taken : Prop} (trans : requestTransId recvMsg = some transId)
    (node : requestPluginNodeId recvMsg = some pluginNodeId)
    (other : further.lookup "configResult" = none) :
    Answers recvMsg (pushReply uuid transId code configType further result pluginNodeId) taken ↔
      requestConfigType recvMsg = some configType ∧ (result = 0 ↔ taken) := by
  have data : jsonObjectGet (jsonObjectGet
      (some (pushReply uuid transId code configType further result pluginNodeId)) "data")
      "configResult" = some (.object [("result", .integer result),
        ("pluginNodeId", .string pluginNodeId)]) := lookup_further other
  constructor
  · intro answer
    obtain ⟨asked, request, reply⟩ := answer.configType
    obtain ⟨result', taken', reply'⟩ := answer.result
    cases Json.integer.inj (Option.some.inj reply)
    rw [data] at reply'
    cases Json.integer.inj (Option.some.inj reply')
    exact ⟨request, taken'⟩
  · rintro ⟨asked, taken'⟩
    exact ⟨⟨transId, trans, rfl⟩, ⟨configType, asked, rfl⟩, ⟨pluginNodeId, node, by rw [data]; rfl⟩,
      ⟨result, taken', by rw [data]; rfl⟩⟩

theorem accepted_iff_call (plugin : PluginReturns) (config : Option CStr) (adapter : NeuAdapter) :
    (∃ text, .setting text 0 ∈ (loadConfig plugin config adapter).2) ↔
      accepted plugin config = true := by
  cases config with
  | none => simp [loadConfig, accepted]
  | some text =>
    by_cases taken : plugin.setting text = 0
    · simp [loadConfig, accepted, taken]
    · simp [loadConfig, accepted, taken, Ne.symm taken]

theorem reload_events (w : World) (manager : NeuManager) (node : CStr) (adapter : NeuAdapter)
    (reply : Event) :
    newEvents manager ((reloadConfig w (stopPlugin w manager node) node adapter).record [reply]) =
      .plugin node (.stop (w.plugin node).stop) ::
        (loadConfig (w.plugin node) (esvPersisterLoadNodeConfig w.db adapter.name) adapter).2.map
          (.plugin node) ++ [.plugin node (.start (w.plugin node).start), reply] := by
  apply newEvents_of_trace
  simp [reloadConfig, stopPlugin, serve]

theorem reload_publications (w : World) (manager : NeuManager) (node : CStr)
    (adapter : NeuAdapter) (topic : CStr) (payload : PublishedMsg) :
    publications manager ((reloadConfig w (stopPlugin w manager node) node adapter).record
      [.publish topic payload]) = [(topic, payload)] := by
  have quiet : ∀ calls : List PluginCall,
      (calls.map (Event.plugin node)).filterMap publication = [] := by
    intro calls
    simp [publication, List.filterMap_eq_nil_iff]
  rw [publications, reload_events, List.cons_append, List.filterMap_cons, List.filterMap_append,
    quiet]
  rfl

theorem reload_accepted (w : World) (manager : NeuManager) (node : CStr)
    (adapter : NeuAdapter) (topic : CStr) (payload : PublishedMsg) :
    ConfigAccepted manager ((reloadConfig w (stopPlugin w manager node) node adapter).record
      [.publish topic payload]) ↔
    accepted (w.plugin node) (esvPersisterLoadNodeConfig w.db adapter.name) = true := by
  rw [← accepted_iff_call _ _ adapter, ConfigAccepted, reload_events]
  simp

theorem not_replied_of_silent {recvMsg : Option Json} {manager after : NeuManager} {rv : Int}
    (silent : publications manager after = []) :
    ¬ Replied recvMsg manager (some (after, rv)) := by
  rintro ⟨after', rv', topic, reply, outcome, published, -⟩
  cases outcome
  simp [silent] at published

theorem not_replied_crash {recvMsg : Option Json} {manager : NeuManager} :
    ¬ Replied recvMsg manager none := by
  rintro ⟨after, rv, topic, reply, outcome, -⟩
  cases outcome

theorem Replied.bind {α : Type} {recvMsg : Option Json} {manager : NeuManager} {x : Option α}
    {f : α → Option (NeuManager × Int)} (replied : Replied recvMsg manager (x.bind f)) :
    ∃ a, x = some a ∧ Replied recvMsg manager (f a) := by
  cases x with
  | none => exact (not_replied_crash replied).elim
  | some a => exact ⟨a, rfl, replied⟩

/-- The reply of a reload is right when its config type and its result are. -/
theorem replied_reload {w : World} {manager : NeuManager} {node : CStr} {adapter : NeuAdapter}
    {recvMsg : Option Json} {topic uuid transId : CStr} {code : Json} {configType rv : Int}
    {further : List (String × Json)} {result : Int} {pluginNodeId : CStr}
    (trans : requestTransId recvMsg = some transId)
    (named : requestPluginNodeId recvMsg = some pluginNodeId)
    (other : further.lookup "configResult" = none) :
    Replied recvMsg manager (some (((reloadConfig w (stopPlugin w manager node) node
      adapter).record [.publish topic (.dumped
        (pushReply uuid transId code configType further result pluginNodeId))]), rv)) ↔
    requestConfigType recvMsg = some configType ∧ (result = 0 ↔
      accepted (w.plugin node) (esvPersisterLoadNodeConfig w.db adapter.name) = true) := by
  rw [← reload_accepted, ← pushReply_answers trans named other]
  constructor
  · rintro ⟨after, rv', topic', reply, outcome, published, answer⟩
    cases outcome
    rw [reload_publications] at published
    cases published
    exact answer
  · intro answer
    exact ⟨_, _, _, _, rfl, reload_publications .., answer⟩

theorem replyConfigType_of_string {recvMsg : Option Json} {id : CStr}
    (named : requestPluginNodeId recvMsg = some id) : replyConfigType recvMsg = 0 := by
  rw [replyConfigType, jsonIntegerValue_of_string named]
  rfl

/-- A request on `wan/<pk>/<dn>/thing/pluginNode/config/push`, as it is handed over. -/
def controlRequest (pk dn : CStr) (payload : List Char) : EsvThingModelMsg :=
  Mqtt.thingModelMsg .wanSubthingThingPluginNodeConfigPush (some pk, some dn) payload

/-- A request on `app/thing/pluginNode/config/push`, as it is handed over. -/
def matterRequest (payload : List Char) : EsvThingModelMsg :=
  { Mqtt.thingModelMsg .appThingPluginNodeConfigPush Mqtt.noDevice payload with
    msg := (CStr.read payload).chars }

theorem silent_self {manager : NeuManager} : publications manager manager = [] := by
  simp [publications]

theorem silent_stop (w : World) (manager : NeuManager) (node : CStr) :
    publications manager (stopPlugin w manager node) = [] := by
  rw [publications, stopPlugin, newEvents_of_trace (trace_called manager node _)]
  rfl

theorem addressed_of_parts {w : World} {manager : NeuManager} {recvMsg : Option Json}
    {transId id node : CStr} {adapter : NeuAdapter}
    (trans : requestTransId recvMsg = some transId)
    (configType : requestConfigType recvMsg = some (replyConfigType recvMsg))
    (named : requestPluginNodeId recvMsg = some id)
    (row : esvPersisterQueryDeviceNodeNameByNodeId w.db (some id) = some (some node))
    (registered : manager.neuNodeManagerFind node = some adapter) :
    Addressed w manager recvMsg id node adapter where
  transId := by rw [trans]; rfl
  configType := by rw [configType, replyConfigType_of_string named]
  pluginNodeId := named
  row := row
  registered := registered

theorem control_replied (w : World) (manager : NeuManager) (pk dn : CStr) (payload : List Char) :
    Replied (w.jsonLoads (.read payload)) manager
      (forwardThingControlMsgToEsvdriver w manager (controlRequest pk dn payload)) ↔
    '\x00' ∈ payload ∧
      ∃ id node adapter, Addressed w manager (w.jsonLoads (.read payload)) id node adapter := by
  by_cases terminated : '\x00' ∈ payload
  case neg =>
    have crash : forwardThingControlMsgToEsvdriver w manager (controlRequest pk dn payload) = none := by
      simp [forwardThingControlMsgToEsvdriver, copyRecvMsg, controlRequest, Mqtt.thingModelMsg,
        terminated]
    rw [crash]
    exact iff_of_false not_replied_crash fun both => terminated both.1
  rw [and_iff_right terminated]
  simp only [forwardThingControlMsgToEsvdriver, copyRecvMsg, controlRequest, Mqtt.thingModelMsg,
    reduceCtorEq, if_false, List.take_length, if_pos terminated, Option.bind_eq_bind, Option.bind_some]
  generalize w.jsonLoads (.read payload) = recvConfig
  constructor
  · intro replied
    obtain ⟨name, row, named_row⟩ := replied.bind
    obtain ⟨node, rfl, found⟩ := named_row.bind
    cases registered : manager.neuNodeManagerFind node with
    | none =>
      rw [registered] at found
      exact (not_replied_of_silent silent_self found).elim
    | some adapter =>
      rw [registered] at found
      obtain ⟨reply, made, answered⟩ := found.bind
      obtain ⟨transId, trans, behind⟩ := Option.bind_eq_some_iff.1 made
      obtain ⟨id, named, rest⟩ := Option.bind_eq_some_iff.1 behind
      cases rest
      have right := (replied_reload trans named rfl).1 answered
      exact ⟨id, node, adapter, addressed_of_parts trans right.1 named (named ▸ row) registered⟩
  · rintro ⟨id, node, adapter, addressed⟩
    obtain ⟨transId, trans⟩ := Option.isSome_iff_exists.mp addressed.transId
    simp only [addressed.pluginNodeId, addressed.row, addressed.registered,
      sendConfigPluginResults, trans, Option.bind_eq_bind, Option.bind_some, Option.pure_def]
    rw [replied_reload trans addressed.pluginNodeId (by rfl),
      replyConfigType_of_string addressed.pluginNodeId]
    refine ⟨addressed.configType, ?_⟩
    split
    · next taken => simp [taken]
    · next refused => simp [refused]

theorem matter_replied (w : World) (manager : NeuManager) (payload : List Char)
    (reload : requestConfigItem (w.jsonLoads (.read payload)) = none) :
    Replied (w.jsonLoads (.read payload)) manager
      (forwardThingModelMatterReloadMsgToEsvdriver w manager (matterRequest payload)) ↔
    ∃ id node adapter, Addressed w manager (w.jsonLoads (.read payload)) id node adapter ∧
      id.strlen < pluginNodeIdSize ∧ (w.plugin node).stop = 0 ∧
      accepted (w.plugin node) (esvPersisterLoadNodeConfig w.db adapter.name) = true := by
  simp only [forwardThingModelMatterReloadMsgToEsvdriver, matterPluginNodeId, matterRequest,
    CStr.read_chars, reload, Option.bind_eq_bind]
  generalize w.jsonLoads (.read payload) = recvConfig
  constructor
  · intro replied
    obtain ⟨id, copied, behind⟩ := replied.bind
    obtain ⟨named, fits⟩ := Option.filter_eq_some_iff.mp copied
    obtain ⟨name, row, named_row⟩ := behind.bind
    obtain ⟨node, rfl, found⟩ := named_row.bind
    cases registered : manager.neuNodeManagerFind node with
    | none =>
      rw [registered] at found
      exact (not_replied_of_silent silent_self found).elim
    | some adapter =>
      rw [registered] at found
      by_cases stopped : (w.plugin node).stop = 0
      · simp only [if_neg (not_not.mpr stopped)] at found
        obtain ⟨reply, made, answered⟩ := found.bind
        obtain ⟨transId, trans, rest⟩ := Option.bind_eq_some_iff.1 made
        simp only [named, Option.bind_eq_bind, Option.bind_some, Option.pure_def] at rest
        cases rest
        have right := (replied_reload trans named rfl).1 answered
        exact ⟨id, node, adapter, addressed_of_parts trans right.1 named row registered,
          by simpa using fits, stopped, right.2.mp rfl⟩
      · simp only [if_pos stopped] at found
        exact (not_replied_of_silent (silent_stop w manager node) found).elim
  · rintro ⟨id, node, adapter, addressed, fits, stopped, taken⟩
    obtain ⟨transId, trans⟩ := Option.isSome_iff_exists.mp addressed.transId
    have copied : copyPluginNodeId (some id) = some id := by
      simpa [copyPluginNodeId] using fits
    simp only [addressed.pluginNodeId, copied, addressed.row, addressed.registered, stopped,
      sendConfigPluginResultsForMatter, trans, Option.bind_eq_bind, Option.bind_some,
      Option.pure_def, ne_eq, not_true_eq_false, if_false]
    rw [replied_reload trans addressed.pluginNodeId (by rfl),
      replyConfigType_of_string addressed.pluginNodeId]
    exact ⟨addressed.configType, by simp [taken]⟩

/-- Both reload paths answer a request exactly when it is addressed to a registered node and
asks for type 0. The first also needs a NUL in the payload, the second a plugin that stops and takes the
configuration. -/
theorem reload_replied (w : World) (manager : NeuManager) :
    (∀ pk dn payload,
      Replied (w.jsonLoads (.read payload)) manager
        (forwardThingControlMsgToEsvdriver w manager (controlRequest pk dn payload)) ↔
      '\x00' ∈ payload ∧
        ∃ id node adapter, Addressed w manager (w.jsonLoads (.read payload)) id node adapter) ∧
    (∀ payload, requestConfigItem (w.jsonLoads (.read payload)) = none →
      (Replied (w.jsonLoads (.read payload)) manager
        (forwardThingModelMatterReloadMsgToEsvdriver w manager (matterRequest payload)) ↔
      ∃ id node adapter, Addressed w manager (w.jsonLoads (.read payload)) id node adapter ∧
        id.strlen < pluginNodeIdSize ∧ (w.plugin node).stop = 0 ∧
        accepted (w.plugin node) (esvPersisterLoadNodeConfig w.db adapter.name) = true)) :=
  ⟨control_replied w manager, matter_replied w manager⟩

def reloadRequest (configType : Int) (pluginNodeId : String) : Json :=
  .object [("transId", .string (.lit "t1")), ("params", .object
    [("configType", .integer configType), ("pluginNodeId", .string (.lit pluginNodeId))])]

def askedWorld (request : Json) : World := { houseWorld with jsonLoads := fun _ => some request }

theorem reload_replied_modbus :
    Replied (some (reloadRequest 0 "2")) house
      (forwardThingModelMatterReloadMsgToEsvdriver (askedWorld (reloadRequest 0 "2")) house
        (matterRequest "{}".toList)) ↔
    ∃ id node adapter,
      Addressed (askedWorld (reloadRequest 0 "2")) house (some (reloadRequest 0 "2"))
        id node adapter ∧
      id.strlen < pluginNodeIdSize ∧
      ((askedWorld (reloadRequest 0 "2")).plugin node).stop = 0 ∧
      accepted ((askedWorld (reloadRequest 0 "2")).plugin node)
        (esvPersisterLoadNodeConfig (askedWorld (reloadRequest 0 "2")).db adapter.name) = true :=
  (reload_replied (askedWorld (reloadRequest 0 "2")) house).2 "{}".toList rfl

def terminatedPayload : List Char := "{}\x00".toList

/-- A request for a node without a row ends without a reply. So does any request without a NUL. -/
theorem unknown_node_not_replied :
    ¬ Replied (some (reloadRequest 0 "9")) house
      (forwardThingControlMsgToEsvdriver (askedWorld (reloadRequest 0 "9")) house
        (controlRequest (.lit "gw") (.lit "one") terminatedPayload)) ∧
    ¬ Replied (some (reloadRequest 0 "2")) house
      (forwardThingControlMsgToEsvdriver (askedWorld (reloadRequest 0 "2")) house
        (controlRequest (.lit "gw") (.lit "one") "{}".toList)) := by
  have unknown : (forwardThingControlMsgToEsvdriver (askedWorld (reloadRequest 0 "9")) house
      (controlRequest (.lit "gw") (.lit "one") terminatedPayload)).isNone := by decide
  have unterminated : (forwardThingControlMsgToEsvdriver (askedWorld (reloadRequest 0 "2")) house
      (controlRequest (.lit "gw") (.lit "one") "{}".toList)).isNone := by decide
  rw [Option.isNone_iff_eq_none.mp unknown, Option.isNone_iff_eq_none.mp unterminated]
  exact ⟨not_replied_crash, not_replied_crash⟩

end Cpm
