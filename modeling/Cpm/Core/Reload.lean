import Cpm.Core.Reply

/-! A rejected configuration in the two reloads that a message starts, compared with a
rejected setting. -/
namespace Cpm

open Lib NeuManager

inductive ReloadPath where
  | matter
  | control
  deriving DecidableEq, Repr

def ReloadPath.forward (w : World) (manager : NeuManager) (msg : EsvThingModelMsg) :
    ReloadPath → Option (NeuManager × Int)
  | matter => forwardThingModelMatterReloadMsgToEsvdriver w manager msg
  | control => forwardThingControlMsgToEsvdriver w manager msg

/-- A configuration that the plugin of the node has turned down between two states. -/
def Rejected (before after : NeuManager) (node text : CStr) : Prop :=
  ∃ rv, rv ≠ 0 ∧ .plugin node (.setting text rv) ∈ newEvents before after

def KeepsConfig (after : NeuManager) (node : CStr) (adapter : NeuAdapter) : Prop :=
  ∃ adapter', after.neuNodeManagerFind node = some adapter' ∧
    adapter'.setting = adapter.setting ∧ adapter'.state = adapter.state

theorem loadConfig_rejected {plugin : PluginReturns} {config : Option CStr} {text : CStr}
    {rv : Int} {adapter : NeuAdapter}
    (called : .setting text rv ∈ (loadConfig plugin config adapter).2) (rejected : rv ≠ 0) :
    (loadConfig plugin config adapter).1 = { adapter with setting := none } := by
  cases config with
  | none => simp [loadConfig] at called
  | some loaded =>
    by_cases accepted : plugin.setting loaded = 0
    · simp only [loadConfig, accepted, if_true, List.mem_singleton] at called
      cases called
      exact absurd rfl rejected
    · simp [loadConfig, accepted]

/-- The node was stopped, its configuration loaded and its plugin started again. -/
def Reloaded (w : World) (before after : NeuManager) : Prop :=
  ∃ node adapter topic payload, before.neuNodeManagerFind node = some adapter ∧
    after = (reloadConfig w (stopPlugin w before node) node adapter).record
      [.publish topic payload]

def NoSetting (before after : NeuManager) : Prop :=
  ∀ node text rv, .plugin node (.setting text rv) ∉ newEvents before after

theorem noSetting_self (manager : NeuManager) : NoSetting manager manager := by
  simp [NoSetting]

theorem noSetting_arrived (w : World) (manager : NeuManager) (node : CStr)
    (msg : EsvThingModelMsg) : NoSetting manager (arrived w manager node msg).1 := by
  intro other text rv
  have events : newEvents manager (arrived w manager node msg).1 = _ :=
    newEvents_of_trace (trace_called manager node _)
  rw [events]
  simp

theorem noSetting_stop (w : World) (manager : NeuManager) (node : CStr) :
    NoSetting manager (stopPlugin w manager node) := by
  intro other text rv
  have events : newEvents manager (stopPlugin w manager node) = _ :=
    newEvents_of_trace (trace_called manager node _)
  rw [events]
  simp

theorem action_noSetting {w : World} {manager after : NeuManager} {msg : EsvThingModelMsg}
    {rv : Int} (ran : forwardAction w manager msg = some (after, rv)) :
    NoSetting manager after := by
  unfold forwardAction at ran
  split at ran
  · cases ran
    exact noSetting_self manager
  · split at ran
    · cases ran
      exact noSetting_self manager
    · obtain ⟨row, -, ran⟩ := Option.bind_eq_some_iff.mp ran
      cases row with
      | none =>
        cases ran
        exact noSetting_self manager
      | some node =>
        simp only at ran
        split at ran
        · cases ran
          exact noSetting_self manager
        · split at ran <;> cases ran <;> exact noSetting_arrived w manager node msg

theorem control_reply {w : World} {pk dn : Option CStr} {recvMsg : Option Json} {result : Int}
    {reply : Event} (sent : sendConfigPluginResults w pk dn recvMsg result = some reply) :
    ∃ topic payload, reply = .publish topic payload := by
  simp only [sendConfigPluginResults, Option.bind_eq_bind, Option.pure_def,
    Option.bind_eq_some_iff, Option.some.injEq] at sent
  obtain ⟨transId, -, id, -, -, -, -, -, rfl⟩ := sent
  exact ⟨_, _, rfl⟩

theorem matter_reply {w : World} {recvMsg : Option Json} {result : Int} {reply : Event}
    (sent : sendConfigPluginResultsForMatter w recvMsg result = some reply) :
    ∃ topic payload, reply = .publish topic payload := by
  simp only [sendConfigPluginResultsForMatter, Option.bind_eq_bind, Option.pure_def,
    Option.bind_eq_some_iff, Option.some.injEq] at sent
  obtain ⟨transId, -, id, -, rfl⟩ := sent
  exact ⟨_, _, rfl⟩

theorem control_cases {w : World} {manager after : NeuManager} {msg : EsvThingModelMsg}
    {rv : Int} (ran : forwardThingControlMsgToEsvdriver w manager msg = some (after, rv)) :
    NoSetting manager after ∨ Reloaded w manager after := by
  obtain ⟨recvMsg, -, ran⟩ := Option.bind_eq_some_iff.mp ran
  split at ran
  · exact .inl (action_noSetting ran)
  · obtain ⟨row, -, ran⟩ := Option.bind_eq_some_iff.mp ran
    obtain ⟨node, -, ran⟩ := Option.bind_eq_some_iff.mp ran
    cases found : manager.neuNodeManagerFind node with
    | none =>
      rw [found] at ran
      cases ran
      exact .inl (noSetting_self manager)
    | some adapter =>
      rw [found] at ran
      obtain ⟨reply, sent, ran⟩ := Option.bind_eq_some_iff.mp ran
      obtain ⟨topic, payload, rfl⟩ := control_reply sent
      cases ran
      exact .inr ⟨node, adapter, topic, payload, found, rfl⟩

theorem matter_cases {w : World} {manager after : NeuManager} {msg : EsvThingModelMsg}
    {rv : Int}
    (ran : forwardThingModelMatterReloadMsgToEsvdriver w manager msg = some (after, rv)) :
    NoSetting manager after ∨ Reloaded w manager after := by
  obtain ⟨id, -, ran⟩ := Option.bind_eq_some_iff.mp ran
  obtain ⟨row, -, ran⟩ := Option.bind_eq_some_iff.mp ran
  obtain ⟨node, -, ran⟩ := Option.bind_eq_some_iff.mp ran
  cases found : manager.neuNodeManagerFind node with
  | none =>
    rw [found] at ran
    cases ran
    exact .inl (noSetting_self manager)
  | some adapter =>
    rw [found] at ran
    simp only at ran
    split at ran
    · split at ran <;> cases ran
      · exact .inl (noSetting_arrived w manager node msg)
      · exact .inl (noSetting_self manager)
    · split at ran
      · cases ran
        exact .inl (noSetting_stop w manager node)
      · obtain ⟨reply, sent, ran⟩ := Option.bind_eq_some_iff.mp ran
        obtain ⟨topic, payload, rfl⟩ := matter_reply sent
        cases ran
        exact .inr ⟨node, adapter, topic, payload, found, rfl⟩

theorem forward_cases {w : World} {manager after : NeuManager} {msg : EsvThingModelMsg}
    {rv : Int} (path : ReloadPath) (ran : path.forward w manager msg = some (after, rv)) :
    NoSetting manager after ∨ Reloaded w manager after := by
  cases path with
  | matter => exact matter_cases ran
  | control => exact control_cases ran

/-- A reload in which the plugin turned a configuration down leaves the node without one. -/
theorem rejected_adapter {w : World} {before after : NeuManager} {node text : CStr}
    {adapter : NeuAdapter} (reloaded : Reloaded w before after)
    (rejected : Rejected before after node text)
    (found : before.neuNodeManagerFind node = some adapter) :
    after.neuNodeManagerFind node = some { adapter with setting := none } := by
  obtain ⟨loaded, adapter', topic, payload, known, rfl⟩ := reloaded
  obtain ⟨rv, refused, called⟩ := rejected
  rw [reload_events] at called
  simp only [List.cons_append, List.mem_cons, List.mem_append, List.mem_map, Event.plugin.injEq,
    reduceCtorEq, and_false, false_or, or_false, List.not_mem_nil] at called
  obtain ⟨call, inside, rfl, rfl⟩ := called
  rw [found] at known
  obtain rfl := Option.some.inj known
  have after := loadConfig_rejected inside refused
  rw [find_record, reloadConfig, find_serve, if_pos rfl, after]
  simp [stopPlugin, called, find_record, found]

/-- A rejected configuration leaves the stored one in place exactly where there was none. -/
theorem reload_keeps_config (path : ReloadPath) (w : World) (manager after : NeuManager)
    (msg : EsvThingModelMsg) (rv : Int) (node text : CStr) (adapter : NeuAdapter)
    (ran : path.forward w manager msg = some (after, rv))
    (rejected : Rejected manager after node text)
    (found : manager.neuNodeManagerFind node = some adapter) :
    KeepsConfig after node adapter ↔ adapter.setting = none := by
  have reloaded : Reloaded w manager after := by
    rcases forward_cases path ran with quiet | reloaded
    · obtain ⟨answer, -, called⟩ := rejected
      exact absurd called (quiet node text answer)
    · exact reloaded
  have dropped := rejected_adapter reloaded rejected found
  constructor
  · rintro ⟨adapter', found', setting, -⟩
    rw [dropped] at found'
    cases found'
    exact setting.symm
  · intro unset
    exact ⟨_, dropped, unset.symm, rfl⟩

def strictWorld : World :=
  { askedWorld (reloadRequest 0 "2") with plugin := fun _ => ⟨0, fun _ => 1, 0, 0, fun _ => 0⟩ }

def configured : NeuAdapter := { adapterOf "Modbus" .esvdevicedriver with setting := some (.lit "{}") }

def configuredHouse : NeuManager := house.setAdapter (.lit "Modbus") configured

def strictReload : NeuManager :=
  (reloadConfig strictWorld (stopPlugin strictWorld configuredHouse (.lit "Modbus"))
    (.lit "Modbus") configured).record
    [.publish (.lit "wan/thing/pluginNode/config/pushReply") (.dumped
      (pushReply .empty (.lit "t1") (.string (.lit "200")) 0 [("deviceIotId", .string .empty)] 2
        (.lit "2")))]

theorem strictReload_ran :
    ReloadPath.control.forward strictWorld configuredHouse
      (controlRequest (.lit "gw") (.lit "one") terminatedPayload) = some (strictReload, 0) := by
  rfl

theorem strictReload_rejected : Rejected configuredHouse strictReload (.lit "Modbus") (.lit "{}") := by
  have loaded : (loadConfig (strictWorld.plugin (.lit "Modbus"))
      (esvPersisterLoadNodeConfig strictWorld.db configured.name) configured).2 =
      [.setting (.lit "{}") 1] := by rfl
  refine ⟨1, by decide, ?_⟩
  rw [strictReload, reload_events, loaded]
  simp

theorem reload_keeps_config_strict :
    KeepsConfig strictReload (.lit "Modbus") configured ↔ configured.setting = none :=
  reload_keeps_config .control strictWorld configuredHouse strictReload
    (controlRequest (.lit "gw") (.lit "one") terminatedPayload) 0 (.lit "Modbus") (.lit "{}") configured
    strictReload_ran strictReload_rejected (by decide)

/-- The stored setting is lost though the plugin keeps its old one. -/
theorem strictReload_drops_setting :
    ReloadPath.control.forward strictWorld configuredHouse
        (controlRequest (.lit "gw") (.lit "one") terminatedPayload) = some (strictReload, 0) ∧
      Rejected configuredHouse strictReload (.lit "Modbus") (.lit "{}") ∧
      configuredHouse.neuNodeManagerFind (.lit "Modbus") = some configured ∧
      ¬ KeepsConfig strictReload (.lit "Modbus") configured := by
  have found : configuredHouse.neuNodeManagerFind (.lit "Modbus") = some configured := by decide
  have reloaded : Reloaded strictWorld configuredHouse strictReload :=
    ⟨_, configured, _, _, found, rfl⟩
  have dropped := rejected_adapter reloaded strictReload_rejected found
  refine ⟨strictReload_ran, strictReload_rejected, found, ?_⟩
  rintro ⟨adapter', after, setting, -⟩
  rw [dropped] at after
  cases after
  cases setting

end Cpm
