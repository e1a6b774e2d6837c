import Cpm.Base.Group
import Cpm.Core.FaultIsolation
import Cpm.Core.Lifecycle

/-! The requests that reach the manager over its socket: `manager_loop` of `manager.c` with
the functions of `manager_internal.c` and `node_manager.c` behind it. -/
namespace Cpm

open Lib NeuManager

structure PluginEntity where
  type : NeuNodeType
  single : Bool
  display : Bool
  deriving DecidableEq, Repr

/-- What the node entity, its module and its plugin say besides the adapter. A pipe of 0 is
one that was never set. -/
structure NodeFacts where
  pipe : Nat
  moduleName : CStr
  link : Nat
  rtt : Nat
  deriving DecidableEq, Repr

structure NodesState where
  node : CStr
  running : NeuNodeRunningState
  link : Nat
  rtt : Nat
  deriving DecidableEq, Repr

inductive AdapterCtl where
  | start
  | stop
  deriving DecidableEq, Repr

inductive ReqrespBody where
  | reqNodeInit (node : CStr) (state : NeuNodeRunningState)
  | reqGetPlugin
  | reqAddNode (node plugin : CStr)
  | reqGetNode (type : Nat) (plugin node : CStr)
  | reqGetNodesState
  | reqGetNodeSetting (node : CStr)
  | reqNodeCtl (node : CStr) (ctl : AdapterCtl)
  | reqNodeCtlEvent (node : CStr) (ctl : AdapterCtl)
  | reqNodeSetting (node setting : CStr)
  | respError (error : Int)
  | respGetNodeSetting (node : CStr) (setting : CStr)
  | respGetPlugin (plugins : List (CStr × PluginEntity))
  | respGetNode (nodes : List (CStr × CStr))
  | respGetNodesState (states : List NodesState)
  deriving DecidableEq, Repr

structure ReqrespMsg where
  ctx : Nat
  sender : CStr
  receiver : CStr
  body : ReqrespBody
  deriving DecidableEq, Repr

/-- A message handed to the socket, with the pipe it is meant for. -/
structure Sent where
  pipe : Nat
  msg : ReqrespMsg
  deriving DecidableEq, Repr

structure ManagerState where
  manager : NeuManager
  plugins : Table CStr PluginEntity
  facts : CStr → NodeFacts

def NEU_ERR_NODE_EXIST : Int := 2002
def NEU_ERR_NODE_NOT_EXIST : Int := 2003
def NEU_ERR_LIBRARY_NOT_FOUND : Int := 2301
def NEU_ERR_LIBRARY_NOT_ALLOW_CREATE_INSTANCE : Int := 2307

namespace ManagerState

def neuNodeManagerGetPipe (s : ManagerState) (name : CStr) : Nat :=
  if known s.manager name then (s.facts name).pipe else 0

def shown (s : ManagerState) : List NeuAdapter :=
  (s.manager.nodes.entries.filter fun e => !e.2.isStatic && e.2.display).map fun e => e.2.adapter

/-- An empty filter text lets every node pass; the node's text may stand anywhere in the
name. -/
def neuNodeManagerFilter (s : ManagerState) (type : Nat) (plugin node : CStr) :
    List (CStr × CStr) :=
  (s.shown.filter fun adapter =>
    adapter.moduleType.code &&& type ≠ 0 &&
      (plugin.chars = [] || (s.facts adapter.name).moduleName = plugin) &&
      (node.chars = [] || node.chars <:+: adapter.name.chars)).map
    fun adapter => (adapter.name, (s.facts adapter.name).moduleName)

def neuNodeManagerGetState (s : ManagerState) : List NodesState :=
  s.shown.map fun adapter =>
    ⟨adapter.name, adapter.state, (s.facts adapter.name).link, (s.facts adapter.name).rtt⟩

def neuPluginManagerGet (s : ManagerState) : List (CStr × PluginEntity) :=
  s.plugins.entries.filter fun e => !e.2.single

/-- `neu_manager_add_node`. `opens` is what assertions ask of a plugin: its library loads,
has the module and makes an instance. The name of a new adapter is logged before the adapter is
compared with NULL. Both ways the manager ends: `none`. -/
def neuManagerAddNode (w : World) (opens : CStr → Bool) (s : ManagerState)
    (node plugin : CStr) : Option (ManagerState × Int) :=
  match s.plugins.find plugin with
  | none => some (s, NEU_ERR_LIBRARY_NOT_FOUND)
  | some info =>
    if info.single then some (s, NEU_ERR_LIBRARY_NOT_ALLOW_CREATE_INSTANCE)
    else if known s.manager node then some (s, NEU_ERR_NODE_EXIST)
    else if opens plugin then
      let created := neuAdapterCreate (w.plugin node) (esvPersisterLoadNodeConfig w.db node) node
        info.type
      match created.1 with
      | none => none
      | some adapter =>
        let added := (s.manager.neuNodeManagerAdd adapter).called node created.2
        let facts := fun name => if name = node then ⟨0, plugin, 0, 0⟩ else s.facts name
        some ({ s with manager := serveNode added node (neuAdapterStart (w.plugin node)), facts },
          NEU_ERR_SUCCESS)
    else none

def forwardMsg (s : ManagerState) (msg : ReqrespMsg) (node : CStr) : List Sent :=
  [⟨s.neuNodeManagerGetPipe node, msg⟩]

def reply (s : ManagerState) (header : ReqrespMsg) (body : ReqrespBody) : List Sent :=
  [⟨s.neuNodeManagerGetPipe header.receiver, { header with body }⟩]

/-- A node that announces itself is bound to its pipe and brought to its state. -/
def nodeInit (w : World) (s : ManagerState) (pipe : Nat) (node : CStr)
    (state : NeuNodeRunningState) : ManagerState :=
  if known s.manager node then
    let facts := fun name => if name = node then { s.facts name with pipe } else s.facts name
    match state with
    | .running =>
      { s with manager := serveNode s.manager node (neuAdapterStart (w.plugin node)), facts }
    | .stopped =>
      { s with manager := serveNode s.manager node (neuAdapterStop (w.plugin node)), facts }
    | .init | .ready => { s with facts }
  else s

end ManagerState

open ManagerState

def ReqrespMsg.toSender (header : ReqrespMsg) : ReqrespMsg :=
  { header with receiver := header.sender }

def neuMsgExchange (header : ReqrespMsg) : ReqrespMsg :=
  { header with sender := header.receiver, receiver := header.sender }

/-- `manager_loop` on a message from a pipe: the state afterwards and what went to the
socket. Other types stop at the assertion. -/
def managerLoop (w : World) (opens : CStr → Bool) (s : ManagerState) (pipe : Nat)
    (header : ReqrespMsg) : Option (ManagerState × List Sent) :=
  match header.body with
  | .reqNodeInit node state => some (nodeInit w s pipe node state, [])
  | .reqGetPlugin =>
    some (s, reply s header.toSender (.respGetPlugin (neuPluginManagerGet s)))
  | .reqAddNode node plugin =>
    (neuManagerAddNode w opens s node plugin).map fun added =>
      (added.1, reply added.1 header.toSender (.respError added.2))
  | .reqGetNode type plugin node =>
    some (s, reply s header.toSender (.respGetNode (neuNodeManagerFilter s type plugin node)))
  | .reqGetNodesState =>
    some (s, reply s { header.toSender with sender := .lit "manager" }
      (.respGetNodesState (neuNodeManagerGetState s)))
  | .reqGetNodeSetting _ | .reqNodeCtl _ _ =>
    if known s.manager header.receiver then some (s, forwardMsg s header header.receiver)
    -- The header is exchanged, but the reply behind it is commented out.
    else some (s, [])
  | .reqNodeCtlEvent _ _ =>
    some (s, if known s.manager header.receiver then forwardMsg s header header.receiver else [])
  | .reqNodeSetting _ _ =>
    if known s.manager header.receiver then some (s, forwardMsg s header header.receiver)
    else some (s, reply s (neuMsgExchange header) (.respError NEU_ERR_NODE_NOT_EXIST))
  | .respGetNodeSetting _ _ | .respError _ => some (s, forwardMsg s header header.receiver)
  | .respGetPlugin _ | .respGetNode _ | .respGetNodesState _ => none

def ReqrespBody.asks : ReqrespBody → Bool
  | reqGetPlugin | reqAddNode _ _ | reqGetNode _ _ _ | reqGetNodesState | reqGetNodeSetting _
  | reqNodeCtl _ _ | reqNodeSetting _ _ => true
  | reqNodeInit _ _ | reqNodeCtlEvent _ _ | respError _ | respGetNodeSetting _ _
  | respGetPlugin _ | respGetNode _ | respGetNodesState _ => false

def ReqrespBody.addressed : ReqrespBody → Bool
  | reqGetNodeSetting _ | reqNodeCtl _ _ | reqNodeSetting _ _ => true
  | _ => false

def ReqrespBody.answers : ReqrespBody → Bool
  | respError _ | respGetPlugin _ | respGetNode _ | respGetNodesState _ => true
  | _ => false

/-- One message goes out and it answers the sender. -/
def RepliedOnce (after : ManagerState) (request : ReqrespMsg) (sent : List Sent)
    (body : ReqrespBody) : Prop :=
  ∃ sender, sent = [⟨after.neuNodeManagerGetPipe request.sender,
    ⟨request.ctx, sender, request.sender, body⟩⟩] ∧ body.answers = true

/-- The request is forwarded once to the node that it addresses, or it is answered once; an
address without a node is answered as such. -/
def Accounted (w : World) (opens : CStr → Bool) (s : ManagerState) (pipe : Nat)
    (request : ReqrespMsg) : Prop :=
  ∃ after sent, managerLoop w opens s pipe request = some (after, sent) ∧
    ((request.body.addressed = true ∧ known s.manager request.receiver = true ∧
        sent = [⟨s.neuNodeManagerGetPipe request.receiver, request⟩]) ∨
      ∃ body, RepliedOnce after request sent body ∧
        (request.body.addressed = true →
          known s.manager request.receiver = false ∧ body = .respError NEU_ERR_NODE_NOT_EXIST))

/-- A plugin that can be instantiated for a new node has a library that opens and makes an
adapter. -/
def Creates (w : World) (opens : CStr → Bool) (s : ManagerState) (node plugin : CStr) : Prop :=
  ∀ info, s.plugins.find plugin = some info → info.single = false →
    known s.manager node = false →
      opens plugin = true ∧ creatable info.type = true ∧ (w.plugin node).init = 0

/-- The two reads of a setting or state need their node; a creation must not fail halfway. -/
def Answerable (w : World) (opens : CStr → Bool) (s : ManagerState) (request : ReqrespMsg) :
    Prop :=
  match request.body with
  | .reqGetNodeSetting _ | .reqNodeCtl _ _ => known s.manager request.receiver = true
  | .reqAddNode node plugin => Creates w opens s node plugin
  | _ => True

theorem repliedOnce_reply (after : ManagerState) (request header : ReqrespMsg)
    {body : ReqrespBody} (back : header.receiver = request.sender) (ctx : header.ctx = request.ctx)
    (answers : body.answers = true) : RepliedOnce after request (reply after header body) body := by
  refine ⟨header.sender, ?_, answers⟩
  simp only [reply, back, ctx]

theorem created_adapter (plugin : PluginReturns) (config : Option CStr) (name : CStr)
    (type : NeuNodeType) :
    (neuAdapterCreate plugin config name type).1.isSome = true ↔
      creatable type = true ∧ plugin.init = 0 := by
  by_cases made : creatable type = true
  · by_cases ready : plugin.init = 0 <;> simp [neuAdapterCreate, made, ready]
  · simp [neuAdapterCreate, made]

theorem addNode_some (w : World) (opens : CStr → Bool) (s : ManagerState) (node plugin : CStr) :
    (neuManagerAddNode w opens s node plugin).isSome = true ↔ Creates w opens s node plugin := by
  have made := created_adapter (w.plugin node) (esvPersisterLoadNodeConfig w.db node) node
  unfold neuManagerAddNode Creates
  cases found : s.plugins.find plugin with
  | none => simp
  | some info =>
    by_cases single : info.single = true
    · simp [single]
    · by_cases taken : known s.manager node = true
      · simp [single, taken]
      · by_cases library : opens plugin = true
        · have both := made info.type
          cases created : (neuAdapterCreate (w.plugin node) (esvPersisterLoadNodeConfig w.db node)
            node info.type).1 with
          | none =>
            rw [created] at both
            simpa [single, taken, library, created] using both
          | some adapter =>
            rw [created] at both
            simpa [single, taken, library, created] using both
        · simp [single, taken, library]

theorem accounted_forward {w : World} {opens : CStr → Bool} {s : ManagerState} {pipe : Nat}
    {request : ReqrespMsg} (addressed : request.body.addressed = true)
    (present : known s.manager request.receiver = true)
    (ran : managerLoop w opens s pipe request =
      some (s, forwardMsg s request request.receiver)) :
    Accounted w opens s pipe request :=
  ⟨s, _, ran, .inl ⟨addressed, present, rfl⟩⟩

theorem accounted_reply {w : World} {opens : CStr → Bool} {s after : ManagerState} {pipe : Nat}
    {request header : ReqrespMsg} {body : ReqrespBody}
    (ran : managerLoop w opens s pipe request = some (after, reply after header body))
    (back : header.receiver = request.sender) (ctx : header.ctx = request.ctx)
    (answers : body.answers = true)
    (absent : request.body.addressed = true →
      known s.manager request.receiver = false ∧ body = .respError NEU_ERR_NODE_NOT_EXIST) :
    Accounted w opens s pipe request :=
  ⟨after, _, ran, .inr ⟨body, repliedOnce_reply after request header back ctx answers, absent⟩⟩

theorem not_accounted_silent {w : World} {opens : CStr → Bool} {s after : ManagerState}
    {pipe : Nat} {request : ReqrespMsg}
    (ran : managerLoop w opens s pipe request = some (after, [])) :
    ¬ Accounted w opens s pipe request := by
  rintro ⟨after', sent, ran', outcome⟩
  rw [ran] at ran'
  cases ran'
  rcases outcome with ⟨-, -, forwarded⟩ | ⟨body, ⟨sender, replied, -⟩, -⟩
  · cases forwarded
  · cases replied

/-- The silent branch of the two requests whose reply is commented out. -/
theorem accounted_lookup {w : World} {opens : CStr → Bool} {s : ManagerState} {pipe : Nat}
    {request : ReqrespMsg} (addressed : request.body.addressed = true)
    (ran : managerLoop w opens s pipe request =
      if known s.manager request.receiver then
        some (s, forwardMsg s request request.receiver) else some (s, [])) :
    Accounted w opens s pipe request ↔ known s.manager request.receiver = true := by
  by_cases present : known s.manager request.receiver = true
  · rw [if_pos present] at ran
    exact iff_of_true (accounted_forward addressed present ran) present
  · rw [if_neg present] at ran
    exact iff_of_false (not_accounted_silent ran) present

/-- Every request is accounted for exactly if it finds its node where the reply is missing,
and if a creation does not stop the manager. -/
theorem managerLoop_accounted (w : World) (opens : CStr → Bool) (s : ManagerState) (pipe : Nat)
    (request : ReqrespMsg) (asks : request.body.asks = true) :
    Accounted w opens s pipe request ↔ Answerable w opens s request := by
  obtain ⟨ctx, sender, receiver, body⟩ := request
  cases body with
  | reqGetPlugin | reqGetNode _ _ _ | reqGetNodesState =>
    exact iff_of_true (accounted_reply rfl rfl rfl rfl nofun) trivial
  | reqGetNodeSetting _ | reqNodeCtl _ _ => exact accounted_lookup rfl rfl
  | reqNodeSetting node setting =>
    refine iff_of_true ?_ trivial
    by_cases present : known s.manager receiver = true
    · exact accounted_forward rfl present (if_pos present)
    · exact accounted_reply (if_neg present) rfl rfl rfl fun _ => ⟨by simpa using present, rfl⟩
  | reqAddNode node plugin =>
    have created : _ ↔ Answerable w opens s ⟨ctx, sender, receiver, .reqAddNode node plugin⟩ :=
      addNode_some w opens s node plugin
    have ran : managerLoop w opens s pipe ⟨ctx, sender, receiver, .reqAddNode node plugin⟩ =
      (neuManagerAddNode w opens s node plugin).map fun added =>
        (added.1, reply added.1 ⟨ctx, sender, sender, .reqAddNode node plugin⟩
          (.respError added.2)) := rfl
    rw [← created]
    cases outcome : neuManagerAddNode w opens s node plugin with
    | none =>
      rw [outcome] at ran
      refine iff_of_false ?_ nofun
      rintro ⟨after, sent, ran', -⟩
      cases ran.symm.trans ran'
    | some added =>
      rw [outcome] at ran
      exact iff_of_true (accounted_reply ran rfl rfl rfl nofun) rfl
  | reqNodeInit | reqNodeCtlEvent | respError | respGetNodeSetting | respGetPlugin | respGetNode
  | respGetNodesState => cases asks

def nodeRequest (body : ReqrespBody) : ReqrespMsg := ⟨1, .lit "rest", .lit "KNX", body⟩

def houseState : ManagerState := ⟨house, .empty, fun _ => ⟨0, .empty, 0, 0⟩⟩

theorem managerLoop_accounted_ctl :
    Accounted houseWorld (fun _ => true) houseState 0
        (nodeRequest (.reqNodeCtl (.lit "KNX") .stop)) ↔
      Answerable houseWorld (fun _ => true) houseState
        (nodeRequest (.reqNodeCtl (.lit "KNX") .stop)) :=
  managerLoop_accounted houseWorld (fun _ => true) houseState 0 _ rfl

/-- A control request to a node that is not there is dropped without an answer. -/
theorem missing_node_unanswered :
    ¬ Accounted houseWorld (fun _ => true) ⟨.initial, .empty, fun _ => ⟨0, .empty, 0, 0⟩⟩ 0
      (nodeRequest (.reqNodeCtl (.lit "KNX") .stop)) := by
  apply not_accounted_silent
  rfl

end Cpm
