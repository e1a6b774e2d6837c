import Cpm.Core.Routing

/-! What one missing or failing node does to the deliveries to the others, and to the result
of `forward_thing_model_msg_to_esvdriver`. -/
namespace Cpm

open Lib NeuManager

def known (manager : NeuManager) (name : CStr) : Bool := (manager.neuNodeManagerFind name).isSome

/-- The message as the plugin of a node gets it; the id left by the node before is lost. -/
def receivedMsg (w : World) (manager : NeuManager) (msg : EsvThingModelMsg) (name : CStr) :
    EsvThingModelMsg :=
  withPluginId w (((manager.neuNodeManagerFind name).map NeuAdapter.name).getD name) msg

def answerOf (w : World) (manager : NeuManager) (msg : EsvThingModelMsg) (name : CStr) : Int :=
  (w.plugin name).thingModelMsgArrived (receivedMsg w manager msg name)

def delivery (w : World) (manager : NeuManager) (msg : EsvThingModelMsg) (name : CStr) : Event :=
  .plugin name (.thingModelMsgArrived (receivedMsg w manager msg name)
    (answerOf w manager msg name))

def listedNodes (w : World) : List CStr := esvPersisterQueryDeviceNodeNameByNodeType w.db

/-- Each listed node with an adapter is called once, and 0 comes back only if every call
returned 0. -/
def FaultIsolated (w : World) (manager : NeuManager) (msg : EsvThingModelMsg) : Prop :=
  (∀ name ∈ listedNodes w, known manager name = true →
    (recipients manager (forwardThingModelMsgToEsvdriver w manager msg).1).count name = 1) ∧
  ((forwardThingModelMsgToEsvdriver w manager msg).2 = 0 → ∀ node msg' rv,
    .plugin node (.thingModelMsgArrived msg' rv) ∈
        newEvents manager (forwardThingModelMsgToEsvdriver w manager msg).1 →
      rv = 0)

/-- The names in front of the first one outside `p` differ, and no further name of `p`
stands behind. -/
def OnceInFront (p : CStr → Bool) (names : List CStr) : Prop :=
  ∃ front back, names = front ++ back ∧ front.Nodup ∧ (∀ name ∈ front, p name = true) ∧
    (∀ name ∈ back.head?, p name = false) ∧ ∀ name ∈ back, p name = true → name ∈ front

/-- No failure stands in front of a last success, unless a name without an adapter makes the
result a failure anyway. -/
def LastSpeaks (w : World) (manager : NeuManager) (msg : EsvThingModelMsg) : Prop :=
  (∀ name ∈ listedNodes w, known manager name = true) →
    (∀ name ∈ (listedNodes w).getLast?, answerOf w manager msg name = 0) →
      ∀ name ∈ listedNodes w, answerOf w manager msg name = 0

theorem takeWhile_once {p : CStr → Bool} {names : List CStr} :
    (∀ name ∈ names, p name = true → (names.takeWhile p).count name = 1) ↔
      OnceInFront p names := by
  constructor
  · intro once
    have inside : ∀ name ∈ names.takeWhile p, name ∈ names ∧ p name = true :=
      fun name member => ⟨(List.takeWhile_sublist p).subset member, List.mem_takeWhile_imp member⟩
    refine ⟨names.takeWhile p, names.dropWhile p, List.takeWhile_append_dropWhile.symm, ?_,
      fun name member => (inside name member).2, ?_, ?_⟩
    · rw [List.nodup_iff_count_le_one]
      intro name
      by_cases member : name ∈ names.takeWhile p
      · exact (once name (inside name member).1 (inside name member).2).le
      · rw [List.count_eq_zero_of_not_mem member]
        omega
    · intro name first
      have stops := List.head?_dropWhile_not p names
      rw [Option.mem_def.mp first] at stops
      simpa using stops
    · intro name behind kept
      have found := once name ((List.dropWhile_sublist p).subset behind) kept
      exact List.count_pos_iff.mp (by omega)
  · rintro ⟨front, back, rfl, distinct, kept, stops, repeated⟩ name member present
    have whole : (front ++ back).takeWhile p = front := by
      rw [List.takeWhile_append_of_pos kept]
      cases back with
      | nil => simp
      | cons b back => simp [stops b rfl]
    have inFront : name ∈ front := by
      rcases List.mem_append.mp member with here | behind
      · exact here
      · exact repeated name behind present
    rw [whole, List.count_eq_one_of_mem distinct inFront]

/-- The loop delivers to the names before the first unknown one, and keeps the last answer. -/
theorem forwardLoop_run (w : World) (names : List CStr) (manager : NeuManager)
    (msg : EsvThingModelMsg) (rv : Int) :
    (forwardLoop w names manager msg rv).1.trace =
        manager.trace ++ (names.takeWhile (known manager)).map (delivery w manager msg) ∧
      (forwardLoop w names manager msg rv).2 =
        if names.all (known manager) then
          ((names.getLast?).map (answerOf w manager msg)).getD rv
        else EXIT_FAILURE := by
  induction names generalizing manager msg rv with
  | nil => simp [forwardLoop]
  | cons name rest ih =>
    unfold forwardLoop
    cases found : manager.neuNodeManagerFind name with
    | none => simp [known, found]
    | some adapter =>
      have here : known manager name = true := by simp [known, found]
      have received : withPluginId w adapter.name msg = receivedMsg w manager msg name := by
        simp [receivedMsg, found]
      obtain ⟨trace, result⟩ := ih (arrived w manager name (withPluginId w adapter.name msg)).1
        (withPluginId w adapter.name msg)
        (arrived w manager name (withPluginId w adapter.name msg)).2
      constructor
      · rw [trace, List.takeWhile_cons_of_pos here, List.map_cons, arrived, trace_called,
          List.append_assoc, received]
        rfl
      · rw [result, List.all_cons, here, Bool.true_and]
        cases rest with
        | nil => simp [arrived, answerOf, received]
        | cons next rest => rfl

theorem newEvents_forward (w : World) (manager : NeuManager) (msg : EsvThingModelMsg) :
    newEvents manager (forwardThingModelMsgToEsvdriver w manager msg).1 =
      ((listedNodes w).takeWhile (known manager)).map (delivery w manager msg) :=
  newEvents_of_trace (forwardLoop_run w (listedNodes w) manager msg 0).1

/-- The result is 0 where every name is known and the last answer is 0. -/
theorem forward_zero (w : World) (manager : NeuManager) (msg : EsvThingModelMsg) :
    (forwardThingModelMsgToEsvdriver w manager msg).2 = 0 ↔
      (∀ name ∈ listedNodes w, known manager name = true) ∧
        ∀ name ∈ (listedNodes w).getLast?, answerOf w manager msg name = 0 := by
  have result : (forwardThingModelMsgToEsvdriver w manager msg).2 = _ :=
    (forwardLoop_run w (listedNodes w) manager msg 0).2
  rw [result]
  by_cases all : ∀ name ∈ listedNodes w, known manager name = true
  · rw [if_pos (List.all_eq_true.mpr all)]
    cases (listedNodes w).getLast? with
    | none => exact ⟨fun _ => ⟨all, nofun⟩, fun _ => rfl⟩
    | some name =>
      constructor
      · intro zero
        refine ⟨all, fun other same => ?_⟩
        obtain rfl := Option.some.inj same
        exact zero
      · exact fun both => both.2 name rfl
  · rw [if_neg (fun yes => all (List.all_eq_true.mp yes))]
    exact ⟨nofun, fun both => absurd both.1 all⟩

theorem answers_zero (w : World) (manager : NeuManager) (msg : EsvThingModelMsg) :
    (∀ node msg' rv, .plugin node (.thingModelMsgArrived msg' rv) ∈
        newEvents manager (forwardThingModelMsgToEsvdriver w manager msg).1 → rv = 0) ↔
      ∀ name ∈ (listedNodes w).takeWhile (known manager), answerOf w manager msg name = 0 := by
  rw [newEvents_forward]
  constructor
  · intro quiet name member
    exact quiet name (receivedMsg w manager msg name) _ (List.mem_map_of_mem member)
  · intro zero node msg' rv member
    obtain ⟨name, inside, same⟩ := List.mem_map.mp member
    cases same
    exact zero _ inside

/-- One node's fault stays its own exactly if the missing nodes come last and the last
answer is not better than the others. -/
theorem faultIsolated_iff (w : World) (manager : NeuManager) (msg : EsvThingModelMsg) :
    FaultIsolated w manager msg ↔
      OnceInFront (known manager) (listedNodes w) ∧ LastSpeaks w manager msg := by
  unfold FaultIsolated
  rw [recipients_forward, answers_zero, forward_zero, ← takeWhile_once]
  apply and_congr Iff.rfl
  constructor
  · intro quiet all last name member
    have whole : (listedNodes w).takeWhile (known manager) = listedNodes w :=
      List.takeWhile_eq_self_iff.mpr all
    exact quiet ⟨all, last⟩ name (whole.symm ▸ member)
  · intro speaks zero name member
    exact speaks zero.1 zero.2 name ((List.takeWhile_sublist _).subset member)

/-- The first driver is gone: the second is not called, though it has an adapter. -/
theorem missing_node_blocks :
    ¬ FaultIsolated houseWorld
      ([adapterOf "Modbus" .esvdevicedriver].foldl NeuManager.neuNodeManagerAdd .initial)
      (propertyMsg .wanSubthingThingServicePropertySet) := by
  intro isolated
  have once := isolated.1 (.lit "Modbus") (by decide) (by decide)
  revert once
  decide

end Cpm
