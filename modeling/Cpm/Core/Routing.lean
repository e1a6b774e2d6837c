import Cpm.Adapter.ThingModelMsg

/-! Who receives a forwarded message, compared with the node its device is bound to and with
the node that submitted it. -/
namespace Cpm

open Lib NeuManager

def recipient : Event → Option CStr
  | .plugin node (.thingModelMsgArrived _ _) => some node
  | _ => none

def recipients (before after : NeuManager) : List CStr :=
  (newEvents before after).filterMap recipient

def routed (w : World) (manager : NeuManager) : List CStr :=
  (esvPersisterQueryDeviceNodeNameByNodeType w.db).takeWhile fun name =>
    (manager.neuNodeManagerFind name).isSome

/-- The loop adds one delivery for each name before the first that is unknown. -/
theorem forwardLoop_recipients (w : World) (names : List CStr) (manager : NeuManager)
    (msg : EsvThingModelMsg) (rv : Int) :
    ∃ events, (forwardLoop w names manager msg rv).1.trace = manager.trace ++ events ∧
      events.filterMap recipient =
        names.takeWhile fun name => (manager.neuNodeManagerFind name).isSome := by
  induction names generalizing manager msg rv with
  | nil => exact ⟨[], by simp [forwardLoop], rfl⟩
  | cons name rest ih =>
    unfold forwardLoop
    split
    · next unknown => exact ⟨[], by simp, by simp [unknown]⟩
    · next adapter known =>
      obtain ⟨events, trace, delivered⟩ := ih (arrived w manager name
        (withPluginId w adapter.name msg)).1 (withPluginId w adapter.name msg)
        (arrived w manager name (withPluginId w adapter.name msg)).2
      refine ⟨_, by rw [trace, arrived, trace_called, List.append_assoc], ?_⟩
      simp only [List.map_cons, List.map_nil, List.cons_append, List.nil_append,
        List.filterMap_cons, recipient, delivered, List.takeWhile_cons, known, Option.isSome_some]
      rfl

theorem recipients_forward (w : World) (manager : NeuManager) (msg : EsvThingModelMsg) :
    recipients manager (forwardThingModelMsgToEsvdriver w manager msg).1 = routed w manager := by
  obtain ⟨events, trace, delivered⟩ := forwardLoop_recipients w
    (esvPersisterQueryDeviceNodeNameByNodeType w.db) manager msg 0
  rw [recipients, forwardThingModelMsgToEsvdriver, newEvents_of_trace trace, delivered]
  rfl

theorem mem_takeWhile_iff {α : Type*} {p : α → Bool} {a : α} {l : List α} :
    a ∈ l.takeWhile p ↔
      ∃ before after, l = before ++ a :: after ∧ (∀ b ∈ before, p b = true) ∧ p a = true := by
  induction l with
  | nil => simp
  | cons c rest ih =>
    rw [List.takeWhile_cons]
    constructor
    · intro inside
      split at inside
      · next kept =>
        rcases List.mem_cons.mp inside with rfl | later
        · exact ⟨[], rest, rfl, by simp, kept⟩
        · obtain ⟨before, after, rfl, all, here⟩ := ih.mp later
          exact ⟨c :: before, after, rfl, by simpa [kept] using all, here⟩
      · simp at inside
    · rintro ⟨before, after, split, all, here⟩
      cases before with
      | nil =>
        obtain ⟨rfl, rfl⟩ := List.cons.inj split
        simp [here]
      | cons d before =>
        obtain ⟨rfl, rfl⟩ := List.cons.inj split
        rw [if_pos (all c (by simp))]
        exact List.mem_cons_of_mem _ (ih.mpr ⟨before, after, rfl, fun b inside =>
          all b (List.mem_cons_of_mem _ inside), here⟩)

/-- Every selected name with an adapter either has the property or stands behind a selected
name without one. -/
def Shielded (w : World) (manager : NeuManager) (property : CStr → NeuAdapter → Prop) : Prop :=
  ∀ before node after,
    esvPersisterQueryDeviceNodeNameByNodeType w.db = before ++ node :: after →
    ∀ adapter, manager.neuNodeManagerFind node = some adapter →
      property node adapter ∨ ∃ other ∈ before, manager.neuNodeManagerFind other = none

theorem routed_all (w : World) (manager : NeuManager) (property : CStr → NeuAdapter → Prop) :
    (∀ node ∈ routed w manager, ∀ adapter, manager.neuNodeManagerFind node = some adapter →
      property node adapter) ↔ Shielded w manager property := by
  constructor
  · intro all before node after split adapter known
    by_cases registered : ∃ other ∈ before, manager.neuNodeManagerFind other = none
    · exact .inr registered
    · refine .inl (all node (mem_takeWhile_iff.mpr ⟨before, after, split, ?_, by simp [known]⟩)
        adapter known)
      intro other inside
      rw [Option.isSome_iff_ne_none]
      exact fun unknown => registered ⟨other, inside, unknown⟩
  · intro shielded node reached adapter known
    obtain ⟨before, after, split, all, -⟩ := mem_takeWhile_iff.mp reached
    rcases shielded before node after split adapter known with holds | ⟨other, inside, unknown⟩
    · exact holds
    · simpa [unknown] using all other inside

/-- Device drivers among the receivers are the node that the device is bound to. -/
def BoundDriver (w : World) (msg : EsvThingModelMsg) (node : CStr) (adapter : NeuAdapter) :
    Prop :=
  adapter.moduleType = .esvdevicedriver →
    esvPersisterQueryDeviceNodeName w.db msg.productKey msg.deviceName = some node

/-- A message stays with its device's driver exactly when every other selected driver is
shielded by a name without an adapter. -/
theorem forward_isolated (w : World) (manager : NeuManager) (msg : EsvThingModelMsg) :
    (∀ node ∈ recipients manager (forwardThingModelMsgToEsvdriver w manager msg).1,
      ∀ adapter, manager.neuNodeManagerFind node = some adapter →
        BoundDriver w msg node adapter) ↔
    Shielded w manager (BoundDriver w msg) := by
  rw [recipients_forward]
  exact routed_all w manager (BoundDriver w msg)

def propertyMsg (method : EsvThingModelMsgMethod) : EsvThingModelMsg :=
  ⟨method, some (.lit "lamp"), some (.lit "one"), .jsonStringPtr, "{}".toList, 2, 0⟩

theorem forward_reaches_other_driver :
    ¬ (∀ node ∈ recipients house (forwardThingModelMsgToEsvdriver houseWorld house
        (propertyMsg .wanSubthingThingServicePropertySet)).1,
      ∀ adapter, house.neuNodeManagerFind node = some adapter →
        BoundDriver houseWorld (propertyMsg .wanSubthingThingServicePropertySet) node adapter) := by
  intro isolated
  have bound := isolated (.lit "Modbus") (by decide) (adapterOf "Modbus" .esvdevicedriver)
    (by decide) rfl
  revert bound
  decide

def propertyMethod (method : EsvThingModelMsgMethod) : Bool :=
  method = .lanSubthingThingEventPropertyPost ||
    method = .lanSubthingThingServicePropertySet || method = .lanSubthingThingServicePropertyGet

theorem recipients_record_publish (w : World) (manager : NeuManager) (topic : CStr)
    (payload : PublishedMsg) (msg : EsvThingModelMsg) :
    recipients manager (forwardThingModelMsgToEsvdriver w
      (manager.record [.publish topic payload]) msg).1 = routed w manager := by
  obtain ⟨events, trace, delivered⟩ := forwardLoop_recipients w
    (esvPersisterQueryDeviceNodeNameByNodeType w.db) (manager.record [.publish topic payload]) msg 0
  rw [trace_record, List.append_assoc] at trace
  rw [recipients, forwardThingModelMsgToEsvdriver, newEvents_of_trace trace]
  simp only [List.cons_append, List.nil_append, List.filterMap_cons, recipient, delivered]
  rfl

theorem recipients_from_app {w : World} {manager : NeuManager} {adapter : NeuAdapter}
    {msg : EsvThingModelMsg} (app : adapter.moduleType = .esvapp)
    (property : propertyMethod msg.method = true) :
    recipients manager (thingModelMsgArrived w manager adapter msg).1 =
      if msg.msgType = .jsonStringPtr then routed w manager else [] := by
  have methods : msg.method = .lanSubthingThingEventPropertyPost ∨
      msg.method = .lanSubthingThingServicePropertySet ∨
      msg.method = .lanSubthingThingServicePropertyGet := by
    simpa [propertyMethod, or_assoc] using property
  have unchanged : recipients manager manager = [] := by simp [recipients]
  unfold thingModelMsgArrived submits publishTopic forwardSubmitted
  by_cases string : msg.msgType = .jsonStringPtr
  · rcases methods with method | method | method <;>
      simp [app, method, string, esvappMethods, recipients_record_publish]
  · rcases methods with method | method | method <;>
      simp [app, method, string, esvappMethods, unchanged]

/-- Nothing an app submits is echoed exactly when every other selected node, the app's own
among them, is shielded by a name without an adapter. -/
theorem app_message_no_echo (w : World) (manager : NeuManager) (sender : CStr)
    (adapter : NeuAdapter) (msg : EsvThingModelMsg)
    (known : manager.neuNodeManagerFind sender = some adapter)
    (app : adapter.moduleType = .esvapp) (property : propertyMethod msg.method = true) :
    (∀ node ∈ recipients manager (thingModelMsgArrived w manager adapter msg).1,
      node ≠ sender ∧ ∃ receiver, manager.neuNodeManagerFind node = some receiver ∧
        receiver.moduleType = .esvdevicedriver) ↔
    msg.msgType ≠ .jsonStringPtr ∨
      Shielded w manager (fun _ receiver => receiver.moduleType = .esvdevicedriver) := by
  rw [recipients_from_app app property]
  by_cases string : msg.msgType = .jsonStringPtr
  · rw [if_pos string, ← routed_all]
    simp only [string, ne_eq, not_true_eq_false, false_or]
    constructor
    · intro drivers node reached receiver found
      obtain ⟨-, other, found', driver⟩ := drivers node reached
      rw [found] at found'
      exact Option.some.inj found' ▸ driver
    · intro drivers node reached
      obtain ⟨-, -, -, -, registered⟩ := mem_takeWhile_iff.mp reached
      obtain ⟨receiver, found⟩ := Option.isSome_iff_exists.mp registered
      have driver := drivers node reached receiver found
      refine ⟨?_, receiver, found, driver⟩
      rintro rfl
      rw [found] at known
      cases Option.some.inj known
      simp [app] at driver
  · simp [string]

theorem app_message_no_echo_matter :
    (∀ node ∈ recipients house (thingModelMsgArrived houseWorld house
        (adapterOf "Matter" .esvapp) (propertyMsg .lanSubthingThingEventPropertyPost)).1,
      node ≠ .lit "Matter" ∧ ∃ receiver, house.neuNodeManagerFind node = some receiver ∧
        receiver.moduleType = .esvdevicedriver) ↔
    (propertyMsg .lanSubthingThingEventPropertyPost).msgType ≠ .jsonStringPtr ∨
      Shielded houseWorld house (fun _ receiver => receiver.moduleType = .esvdevicedriver) :=
  app_message_no_echo _ _ _ (adapterOf "Matter" .esvapp) _ (by decide) rfl rfl

theorem matter_post_echoes :
    ¬ (∀ node ∈ recipients house (thingModelMsgArrived houseWorld house
        (adapterOf "Matter" .esvapp) (propertyMsg .lanSubthingThingEventPropertyPost)).1,
      node ≠ .lit "Matter" ∧ ∃ receiver, house.neuNodeManagerFind node = some receiver ∧
        receiver.moduleType = .esvdevicedriver) := by
  intro quiet
  exact (quiet (.lit "Matter") (by decide)).1 rfl

end Cpm
