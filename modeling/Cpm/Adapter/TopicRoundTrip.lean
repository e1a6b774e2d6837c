import Cpm.Adapter.ThingModelMsg
import Cpm.Mqtt.Extraction

/-! The LAN topics on which submitted messages are published, read back by the LAN service. -/
namespace Cpm

open Lib Lib.Paths Mqtt NeuManager

/-- The subscription that belongs to a LAN method. -/
def EsvThingModelMsgMethod.lanFilter : EsvThingModelMsgMethod → Option TopicWildcard
  | .lanSubthingThingEventPropertyPost => some .lanThingsubEventPropertyPost
  | .lanSubthingThingServicePropertySet => some .lanThingsubServicePropertySet
  | .lanSubthingThingServicePropertySetReply => some .lanThingsubServicePropertySetreply
  | .lanSubthingThingServicePropertyGet => some .lanThingsubServicePropertyGet
  | .lanSubthingThingServicePropertyGetReply => some .lanThingsubServicePropertyGetreply
  | _ => none

/-- A name that fills exactly one level of a topic. -/
def OneLevel (name : CStr) : Prop := name.chars ≠ [] ∧ '/' ∉ name.chars

instance (name : CStr) : Decidable (OneLevel name) := inferInstanceAs (Decidable (_ ∧ _))

/-- A format and a filter say the same around the two names. -/
structure Alike (topicFormate : String) (filter : CStr) (front back : List Char) : Prop where
  frontPlain : '%' ∉ front
  noNul : '\x00' ∉ front ++ back
  format : topicFormate.toList = front ++ "/%s/%s/".toList ++ back
  pattern : pattern filter.chars =
    (levels front).map .exact ++ [.any, .any] ++ (levels back).map .exact

instance (topicFormate : String) (filter : CStr) (front back : List Char) :
    Decidable (Alike topicFormate filter front back) :=
  decidable_of_iff
    ('%' ∉ front ∧ '\x00' ∉ front ++ back ∧
      topicFormate.toList = front ++ "/%s/%s/".toList ++ back ∧
      pattern filter.chars = (levels front).map .exact ++ [.any, .any] ++ (levels back).map .exact)
    ⟨fun h => ⟨h.1, h.2.1, h.2.2.1, h.2.2.2⟩, fun h => ⟨h.1, h.2, h.3, h.4⟩⟩

/-- Of literals the characters are compared, which need not be evaluated. -/
theorem alike_literals {topicFormate filter front back : List Char} (frontPlain : '%' ∉ front)
    (noNul : '\x00' ∉ front ++ back)
    (format : topicFormate = front ++ ['/', '%', 's', '/', '%', 's', '/'] ++ back)
    (same : pattern (filter.takeWhile (· != '\x00')) =
      (levels front).map .exact ++ [.any, .any] ++ (levels back).map .exact) :
    Alike (.ofList topicFormate) (.lit (.ofList filter)) (String.ofList front).toList
      (String.ofList back).toList := by
  have names : "/%s/%s/".toList = ['/', '%', 's', '/', '%', 's', '/'] := String.toList_ofList
  rw [String.toList_ofList, String.toList_ofList]
  refine ⟨frontPlain, noNul, ?_, ?_⟩
  · rw [String.toList_ofList, names, format]
  · rw [CStr.chars_lit, same]

theorem fill_names {topicFormate : String} {filter : CStr} {front back : List Char}
    (alike : Alike topicFormate filter front back) (pk dn : CStr) :
    CStr.fill topicFormate.toList [pk, dn] =
      front ++ '/' :: (pk.chars ++ '/' :: (dn.chars ++ '/' :: back)) := by
  have names : "/%s/%s/".toList = ['/', '%', 's', '/', '%', 's', '/'] := by decide
  rw [alike.format, names, List.append_assoc, CStr.fill_append alike.frontPlain]
  simp [CStr.fill]

theorem sprintf_names {topicFormate : String} {filter : CStr} {front back : List Char}
    (alike : Alike topicFormate filter front back) (pk dn : CStr) :
    (CStr.sprintf topicFormate [pk, dn]).chars =
      front ++ '/' :: (pk.chars ++ '/' :: (dn.chars ++ '/' :: back)) := by
  have noNul : '\x00' ∉ CStr.fill topicFormate.toList [pk, dn] := by
    have outer := alike.noNul
    rw [fill_names alike pk dn]
    simp_all [pk.noNul, dn.noNul]
  have same := congrArg CStr.chars (CStr.read_chars ⟨_, noNul⟩)
  exact same.trans (fill_names alike pk dn)

theorem sprintf_levels {topicFormate : String} {filter : CStr} {front back : List Char}
    (alike : Alike topicFormate filter front back) {pk dn : CStr} (key : OneLevel pk)
    (name : OneLevel dn) :
    levels (CStr.sprintf topicFormate [pk, dn]).chars =
      levels front ++ [pk.chars, dn.chars] ++ levels back := by
  rw [sprintf_names alike, levels_append, levels_append, levels_append, levels_single key.2,
    levels_single name.2]
  simp

theorem matches_exact (path : List (List Char)) : Matches (path.map .exact) path := by
  induction path with
  | nil => exact .nil
  | cons a path ih => exact .cons (.exact a) ih

theorem sprintf_matches {topicFormate : String} {filter : CStr} {front back : List Char}
    (alike : Alike topicFormate filter front back) {pk dn : CStr} (key : OneLevel pk)
    (name : OneLevel dn) : LevelMatch (.sprintf topicFormate [pk, dn]) filter := by
  have names : Matches [.any, .any] [pk.chars, dn.chars] := .cons (.any _) (.cons (.any _) .nil)
  unfold LevelMatch
  rw [alike.pattern, sprintf_levels alike key name]
  exact ((matches_exact _).append (by simp) names).append (by simp) (matches_exact _)

/-- The names come back where the front has the levels that the reader skips. -/
theorem sprintf_pkDn {topicFormate : String} {filter : CStr} {front back : List Char}
    (alike : Alike topicFormate filter front back) (filled : [] ∉ levels front) {pk dn : CStr}
    (key : OneLevel pk) (name : OneLevel dn) :
    getPkDnFromThingsubTopic (.sprintf topicFormate [pk, dn]) (levels front).length none none =
      (some pk, some dn) := by
  have kept : (levels front).filter (· ≠ []) = levels front :=
    List.filter_eq_self.mpr fun l inside => by
      rw [decide_eq_true_eq]
      rintro rfl
      exact filled inside
  have found : tokens (.sprintf topicFormate [pk, dn]) =
      (levels front).map .read ++ ([pk, dn] ++ ((levels back).filter (· ≠ [])).map .read) := by
    rw [tokens, sprintf_levels alike key name, List.append_assoc, List.filter_append, kept]
    simp [key.1, name.1]
  simp [getPkDnFromThingsubTopic, found]

theorem lan_alike {msg : EsvThingModelMsg} {filter : TopicWildcard}
    (lan : msg.method.lanFilter = some filter) :
    ∃ topicFormate back, publishTopic msg = some (deviceTopic topicFormate msg) ∧
      Alike topicFormate filter.text "lan/thing/sub".toList back := by
  cases method : msg.method with
  | lanSubthingThingEventPropertyPost =>
    rw [method] at lan
    cases lan
    exact ⟨"lan/thing/sub/%s/%s/thing/event/property/post", "thing/event/property/post".toList,
      by simp only [publishTopic, method],
      alike_literals (by decide) (by decide) (by decide) (by decide)⟩
  | lanSubthingThingServicePropertySet =>
    rw [method] at lan
    cases lan
    exact ⟨"lan/thing/sub/%s/%s/thing/service/property/set", "thing/service/property/set".toList,
      by simp only [publishTopic, method],
      alike_literals (by decide) (by decide) (by decide) (by decide)⟩
  | lanSubthingThingServicePropertySetReply =>
    rw [method] at lan
    cases lan
    exact ⟨"lan/thing/sub/%s/%s/thing/service/property/setReply", "thing/service/property/setReply".toList,
      by simp only [publishTopic, method],
      alike_literals (by decide) (by decide) (by decide) (by decide)⟩
  | lanSubthingThingServicePropertyGet =>
    rw [method] at lan
    cases lan
    exact ⟨"lan/thing/sub/%s/%s/thing/service/property/get", "thing/service/property/get".toList,
      by simp only [publishTopic, method],
      alike_literals (by decide) (by decide) (by decide) (by decide)⟩
  | lanSubthingThingServicePropertyGetReply =>
    rw [method] at lan
    cases lan
    exact ⟨"lan/thing/sub/%s/%s/thing/service/property/getReply", "thing/service/property/getReply".toList,
      by simp only [publishTopic, method],
      alike_literals (by decide) (by decide) (by decide) (by decide)⟩
  | _ =>
    rw [method] at lan
    cases lan

/- What a submitted message publishes. -/

def publishedOn : Event → Option CStr
  | .publish topic _ => some topic
  | .plugin _ _ => none

def Unpublished (before after : NeuManager) : Prop :=
  ∃ events, after.trace = before.trace ++ events ∧ events.filterMap publishedOn = []

theorem unpublished_self (manager : NeuManager) : Unpublished manager manager :=
  ⟨[], (List.append_nil _).symm, rfl⟩

theorem Unpublished.trans {before middle after : NeuManager} (first : Unpublished before middle)
    (second : Unpublished middle after) : Unpublished before after := by
  obtain ⟨events, trace, none⟩ := first
  obtain ⟨more, further, none'⟩ := second
  refine ⟨events ++ more, ?_, ?_⟩
  · rw [further, trace, List.append_assoc]
  · rw [List.filterMap_append, none, none', List.append_nil]

theorem arrived_unpublished (w : World) (manager : NeuManager) (node : CStr) (msg : EsvThingModelMsg) :
    Unpublished manager (arrived w manager node msg).1 :=
  ⟨_, trace_called .., rfl⟩

theorem forwardLoop_unpublished (w : World) (names : List CStr) (manager : NeuManager)
    (msg : EsvThingModelMsg) (rv : Int) :
    Unpublished manager (forwardLoop w names manager msg rv).1 := by
  induction names generalizing manager msg rv with
  | nil => exact unpublished_self manager
  | cons name rest ih =>
    rw [forwardLoop]
    split
    · exact unpublished_self manager
    · exact (arrived_unpublished w manager name _).trans (ih _ _ _)

theorem forwardToEsvapps_unpublished (w : World) (manager : NeuManager) (msg : EsvThingModelMsg) :
    Unpublished manager (forwardThingModelMsgToEsvapps w manager msg).1 := by
  unfold forwardThingModelMsgToEsvapps
  generalize manager.esvappnodes.getD (manager.neuNodeManagerGetAdapter .esvapp) = nodes
  have kept (start : NeuManager) :
      Unpublished start (nodes.foldl (fun manager node => (arrived w manager node msg).1) start) := by
    induction nodes generalizing start with
    | nil => exact unpublished_self start
    | cons node rest ih => exact (arrived_unpublished w start node msg).trans (ih _)
  exact kept { manager with esvappnodes := some nodes }

theorem forwardSubmitted_unpublished (w : World) (manager : NeuManager) (type : NeuNodeType)
    (msg : EsvThingModelMsg) : Unpublished manager (forwardSubmitted w manager type msg) := by
  unfold forwardSubmitted
  split
  · exact forwardToEsvapps_unpublished w manager msg
  · exact forwardToEsvapps_unpublished w manager msg
  · exact forwardToEsvapps_unpublished w manager msg
  · exact forwardToEsvapps_unpublished w manager msg
  · exact forwardLoop_unpublished ..
  · exact forwardLoop_unpublished ..
  · exact forwardLoop_unpublished ..
  · exact unpublished_self manager

/-- The topics on which `thing_model_msg_arrived` publishes: one, or none for a sender or a payload
that it turns down. -/
theorem arrived_publishes (w : World) (manager : NeuManager) (adapter : NeuAdapter)
    {msg : EsvThingModelMsg} {topic : CStr} (published : publishTopic msg = some topic) :
    (newEvents manager (thingModelMsgArrived w manager adapter msg).1).filterMap publishedOn =
      if submits adapter.moduleType msg.method ∧ msg.msgType = .jsonStringPtr then [topic]
      else [] := by
  unfold thingModelMsgArrived
  rw [published]
  by_cases submitted : submits adapter.moduleType msg.method = true
  · by_cases string : msg.msgType = .jsonStringPtr
    · have both : submits adapter.moduleType msg.method = true ∧ msg.msgType = .jsonStringPtr :=
        ⟨submitted, string⟩
      obtain ⟨events, trace, none⟩ := forwardSubmitted_unpublished w
        (manager.record [.publish topic (.text (.read msg.msg))]) adapter.moduleType msg
      rw [trace_record, List.append_assoc] at trace
      rw [if_pos both, if_pos submitted]
      dsimp only
      rw [if_pos string, newEvents_of_trace trace]
      simp [publishedOn, none]
    · simp [submitted, string]
  · simp [submitted]

/-- The topic on which a LAN message is published finds its own filter, no other one, and gives the
two names back. -/
theorem lan_topic_round_trip (msg : EsvThingModelMsg) (filter : TopicWildcard) (pk dn : CStr)
    (lan : msg.method.lanFilter = some filter) (productKey : msg.productKey = some pk)
    (deviceName : msg.deviceName = some dn) (key : OneLevel pk) (name : OneLevel dn) :
    ∃ topic, publishTopic msg = some topic ∧
      (∀ w manager adapter,
        (newEvents manager (thingModelMsgArrived w manager adapter msg).1).filterMap publishedOn =
          if submits adapter.moduleType msg.method ∧ msg.msgType = .jsonStringPtr then [topic]
          else []) ∧
      topicMatchesWildcard topic filter.text = true ∧
      (∀ other, other ≠ filter → topicMatchesWildcard topic other.text = false) ∧
      getPkDnFromThingsubTopic topic 3 none none = (some pk, some dn) := by
  obtain ⟨topicFormate, back, published, alike⟩ := lan_alike lan
  have named : deviceTopic topicFormate msg = .sprintf topicFormate [pk, dn] := by
    simp [deviceTopic, stringArg, productKey, deviceName]
  have arrived := sprintf_matches alike key name
  rw [named] at published
  refine ⟨_, published, fun w manager adapter => arrived_publishes w manager adapter published,
    (matches_text _ _).mpr arrived, ?_, ?_⟩
  · intro other different
    simpa [different] using matches_only arrived other
  · exact sprintf_pkDn alike (by decide) key name

theorem lan_topic_round_trip_plus :
    ∃ topic,
      (newEvents house (thingModelMsgArrived houseWorld house (adapterOf "Matter" .esvapp)
        { method := .lanSubthingThingServicePropertySet, productKey := some (.lit "+")
          deviceName := some (.lit "set %s"), msgType := .jsonStringPtr, msg := [], msgLen := 0
          pluginId := 0 }).1).filterMap publishedOn = [topic] ∧
      topicMatchesWildcard topic TopicWildcard.lanThingsubServicePropertySet.text = true ∧
      (∀ other, other ≠ TopicWildcard.lanThingsubServicePropertySet →
        topicMatchesWildcard topic other.text = false) ∧
      getPkDnFromThingsubTopic topic 3 none none = (some (.lit "+"), some (.lit "set %s")) := by
  obtain ⟨topic, -, published, matched⟩ := lan_topic_round_trip
    { method := .lanSubthingThingServicePropertySet, productKey := some (.lit "+")
      deviceName := some (.lit "set %s"), msgType := .jsonStringPtr, msg := [], msgLen := 0
      pluginId := 0 } .lanThingsubServicePropertySet (.lit "+") (.lit "set %s") rfl rfl rfl
    (by decide) (by decide)
  exact ⟨topic, published houseWorld house (adapterOf "Matter" .esvapp), matched⟩

end Cpm
