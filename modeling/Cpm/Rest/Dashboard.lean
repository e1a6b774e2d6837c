import Cpm.Core.Broadcast
import Cpm.Rest.Handlers
import Cpm.Utils.UrlDecode

/-! A request of the dashboard on its way: the handler, the manager, for a control request the node
with the manager again, and the response to the dashboard. `wire` is the node that a message to a
pipe reaches, also to the pipe 0 of a node that was never bound. -/
namespace Cpm

open Lib NeuManager ManagerState

def dashboardName : CStr := .lit "default-dashboard"

/-- `dashb_plugin_request`, apart from the global configuration: each response is handed on to HTTP,
and other types fail an assertion. -/
def dashbPluginRequest : ReqrespBody → Option NngHttpStatus
  | .respError error => neuHttpResponse error
  | .respGetPlugin _ | .respGetNode _ | .respGetNodesState _ | .respGetNodeSetting _ _ => some .ok
  | .reqNodeInit _ _ | .reqGetPlugin | .reqAddNode _ _ | .reqGetNode _ _ _ | .reqGetNodesState
  | .reqGetNodeSetting _ | .reqNodeCtl _ _ | .reqNodeCtlEvent _ _ | .reqNodeSetting _ _ => none

def NEU_ADAPTER_CTL_START : Int := 0
def NEU_ADAPTER_CTL_STOP : Int := 1

/-- `NEU_REQ_NODE_CTL` in `adapter_loop`; a number that is no control is a success. The event for the
monitor is no response and is left out. -/
def adapterCtl (plugin : PluginReturns) (ctl : Int) (adapter : NeuAdapter) : Served :=
  if ctl = NEU_ADAPTER_CTL_START then neuAdapterStart plugin adapter
  else if ctl = NEU_ADAPTER_CTL_STOP then neuAdapterStop plugin adapter
  else ⟨adapter, [], NEU_ERR_SUCCESS⟩

def ctlBody (node : CStr) (ctl : Int) : ReqrespBody :=
  .reqNodeCtl node (if ctl = NEU_ADAPTER_CTL_STOP then .stop else .start)

section
variable (w : World) (opens : CStr → Bool) (wire : Nat → Option CStr) (s : ManagerState)
  (pipe ctx : Nat)

def responsesOf (sent : List Sent) : Option (List NngHttpStatus) :=
  (sent.filter fun m => wire m.pipe = some dashboardName).mapM fun m =>
    dashbPluginRequest m.msg.body

def arrive (after : ManagerState) (sent : List Sent) : Option (ManagerState × List NngHttpStatus) :=
  (responsesOf wire sent).map fun responses => (after, responses)

/-- The adapter that a message reaches, whatever receiver it names. -/
def reached (sent : Sent) : Option (CStr × NeuAdapter) :=
  (wire sent.pipe).bind fun node => (s.manager.neuNodeManagerFind node).map fun adapter =>
    (node, adapter)

/-- What becomes of a message that `adapter_command` sends: the responses in the end. -/
def carried : RestMsg → Option (ManagerState × List NngHttpStatus)
  | .body body =>
    (managerLoop w opens s pipe ⟨ctx, dashboardName, .empty, body⟩).bind fun (after, sent) =>
      arrive wire after sent
  | .nodeCtl node ctl =>
    (managerLoop w opens s pipe ⟨ctx, dashboardName, node, ctlBody node ctl⟩).bind
      fun (after, sent) =>
        match sent.head?.bind (reached wire after) with
        | some (own, adapter) =>
          let served := adapterCtl (w.plugin own) ctl adapter
          let back := { after with manager := after.manager.serve own served }
          (managerLoop w opens back pipe ⟨ctx, node, dashboardName, .respError served.rv⟩).bind
            fun (last, sent) => arrive wire last sent
        | none => some (after, [])
  -- `manager_loop` asserts that there are no messages of the other types.
  | .updateNode _ _ | .delNode _ | .addPlugin _ | .delPlugin _ | .getNodeState _
  | .updateLogLevel _ => none

def react (reaction : Reaction) : Option (ManagerState × List NngHttpStatus) :=
  match reaction.sent with
  | none => some (s, reaction.responses)
  | some msg => (carried w opens wire s pipe ctx msg).map fun ended =>
      (ended.1, reaction.responses ++ ended.2)

def dashboardServe {Token : Type} (rest : RestWorld Token) (route : Route) (req : HttpRequest) :
    Option (ManagerState × List NngHttpStatus) :=
  (handle rest route req).bind (react w opens wire s pipe ctx)

def AnsweredOnce (outcome : Option (ManagerState × List NngHttpStatus)) : Prop :=
  ∃ after status, outcome = some (after, [status])

/- What each piece of a handler comes to. -/

section
variable {Token : Type} (rest : RestWorld Token) {α : Type} (req : HttpRequest)

def ReactsOnce (reaction : Option Reaction) : Prop :=
  AnsweredOnce (reaction.bind (react w opens wire s pipe ctx))

def CarriedOnce (msg : RestMsg) : Prop := AnsweredOnce (carried w opens wire s pipe ctx msg)

/-- A body that is decoded leads to a good end, and none makes the decoder read where nothing is. -/
def BodyGood (decode : Json → Decoded α) (good : α → Prop) : Prop :=
  ∀ json, req.body = some json →
    decode json ≠ .error .crashed ∧ ∀ decoded, decode json = .ok decoded → good decoded

def Unlocked (good : Prop) : Prop :=
  (rest.disableJwt = false → (neuJwtValidate rest req.authorization).isSome = true) ∧
    (rest.disableJwt = true ∨ Trusted rest req → good)

def Linked : Prop := wire (s.neuNodeManagerGetPipe dashboardName) = some dashboardName

/-- A control request reaches a node, and HTTP knows the code of its plugin. -/
def CtlAnswered (node : CStr) (ctl : Int) : Prop :=
  known s.manager node = true ∧ ∃ own adapter,
    wire (s.neuNodeManagerGetPipe node) = some own ∧
    s.manager.neuNodeManagerFind own = some adapter ∧
    (neuHttpResponse (adapterCtl (w.plugin own) ctl adapter).rv).isSome = true

variable {w opens wire s pipe ctx}

theorem answeredOnce_some {after : ManagerState} {responses : List NngHttpStatus} :
    AnsweredOnce (some (after, responses)) ↔ responses.length = 1 := by
  rw [List.length_eq_one_iff]
  constructor
  · rintro ⟨_, status, ended⟩
    cases ended
    exact ⟨status, rfl⟩
  · rintro ⟨status, rfl⟩
    exact ⟨after, status, rfl⟩

theorem not_answeredOnce_none : ¬ AnsweredOnce none := by
  rintro ⟨_, _, ended⟩
  cases ended

theorem reactsOnce_error (code : Int) :
    ReactsOnce w opens wire s pipe ctx (errorResponse code) ↔ (neuHttpResponse code).isSome = true := by
  unfold ReactsOnce errorResponse
  cases neuHttpResponse code with
  | none => exact iff_of_false not_answeredOnce_none nofun
  | some status => exact iff_of_true ⟨s, status, rfl⟩ rfl

theorem reactsOnce_badRequest : ReactsOnce w opens wire s pipe ctx (some badRequest) :=
  ⟨s, .badRequest, rfl⟩

theorem reactsOnce_stopped : ¬ ReactsOnce w opens wire s pipe ctx none := not_answeredOnce_none

theorem reactsOnce_process (decode : Json → Decoded α) (func : α → Option Reaction) :
    ReactsOnce w opens wire s pipe ctx (processHttpRequest req decode func) ↔
      BodyGood req decode fun decoded => ReactsOnce w opens wire s pipe ctx (func decoded) := by
  unfold processHttpRequest BodyGood
  cases body : req.body with
  | none => exact iff_of_true reactsOnce_badRequest fun _ given => by cases given
  | some json =>
    dsimp only
    cases ended : decode json with
    | ok decoded =>
      constructor
      · rintro reacts _ ⟨rfl⟩
        rw [ended]
        exact ⟨nofun, fun _ same => by cases same; exact reacts⟩
      · intro good
        exact (good json rfl).2 decoded ended
    | error e =>
      cases e with
      | failed =>
        refine iff_of_true reactsOnce_badRequest ?_
        rintro _ ⟨rfl⟩
        rw [ended]
        exact ⟨nofun, nofun⟩
      | crashed => exact iff_of_false reactsOnce_stopped fun good => (good json rfl).1 ended

theorem reactsOnce_strcpy (size : Nat) (text : CStr) (next : CharArray size → Option Reaction) :
    ReactsOnce w opens wire s pipe ctx (strcpy size text >>= next) ↔
      ∃ fits : text.strlen < size, ReactsOnce w opens wire s pipe ctx (next ⟨text, fits⟩) := by
  unfold strcpy
  by_cases fits : text.strlen < size
  · rw [dif_pos fits]
    exact ⟨fun reacts => ⟨fits, reacts⟩, fun ⟨_, reacts⟩ => reacts⟩
  · rw [dif_neg fits]
    exact iff_of_false reactsOnce_stopped fun ⟨fits', _⟩ => fits fits'

theorem reactsOnce_pluginOp (msg : RestMsg) :
    ReactsOnce w opens wire s pipe ctx (neuPluginOp rest msg) ↔
      rest.sendFails = true ∨ CarriedOnce w opens wire s pipe ctx msg := by
  unfold neuPluginOp
  by_cases busy : rest.sendFails = true
  · rw [if_pos busy, reactsOnce_error]
    exact iff_of_true rfl (.inl busy)
  · rw [if_neg busy]
    have only : rest.sendFails = true ∨ CarriedOnce w opens wire s pipe ctx msg ↔
        CarriedOnce w opens wire s pipe ctx msg := or_iff_right busy
    rw [only, ReactsOnce, CarriedOnce, Option.bind_some, react]
    dsimp only
    cases carried w opens wire s pipe ctx msg with
    | none => rfl
    | some ended => rfl

theorem reactsOnce_validate (next : Option Reaction) :
    ReactsOnce w opens wire s pipe ctx (validateJwt rest req next) ↔
      Unlocked rest req (ReactsOnce w opens wire s pipe ctx next) := by
  unfold validateJwt Unlocked
  by_cases off : rest.disableJwt = true
  · rw [if_pos off]
    exact ⟨fun reacts => ⟨fun on => absurd (off.symm.trans on) (by decide), fun _ => reacts⟩,
      fun unlocked => unlocked.2 (.inl off)⟩
  · rw [if_neg off]
    cases jwt_checked rest req with
    | passed ran trusted =>
      rw [ran]
      exact ⟨fun reacts => ⟨fun _ => rfl, fun _ => reacts⟩,
        fun unlocked => unlocked.2 (.inr trusted)⟩
    | refused code ran refusal untrusted =>
      obtain ⟨status, -, wrong, answered⟩ := refusal
      rw [ran]
      dsimp only
      rw [if_pos wrong, answered]
      have shut : ¬ (rest.disableJwt = true ∨ Trusted rest req) := not_or.2 ⟨off, untrusted⟩
      exact iff_of_true ⟨s, status, rfl⟩ ⟨fun _ => rfl, fun allowed => absurd allowed shut⟩
    | stopped ran untrusted unread =>
      rw [ran]
      refine iff_of_false reactsOnce_stopped fun unlocked => ?_
      cases unlocked.1 (by simpa using off)

theorem responsesOf_one (sent : Sent) :
    responsesOf wire [sent] =
      if wire sent.pipe = some dashboardName then
        (dashbPluginRequest sent.msg.body).map fun status => [status]
      else some [] := by
  unfold responsesOf
  by_cases arrives : wire sent.pipe = some dashboardName
  · rw [if_pos arrives, List.filter_cons, if_pos (decide_eq_true arrives), List.filter_nil,
      List.mapM_cons, List.mapM_nil]
    cases dashbPluginRequest sent.msg.body <;> rfl
  · rw [if_neg arrives, List.filter_cons, if_neg (by simpa using arrives)]
    rfl

theorem answeredOnce_one {after : ManagerState} (sent : Sent) :
    AnsweredOnce (arrive wire after [sent]) ↔
      wire sent.pipe = some dashboardName ∧ (dashbPluginRequest sent.msg.body).isSome = true := by
  rw [arrive, responsesOf_one]
  split
  · next arrives =>
    rw [and_iff_right arrives]
    cases dashbPluginRequest sent.msg.body with
    | none => exact iff_of_false not_answeredOnce_none nofun
    | some status => exact iff_of_true ⟨after, status, rfl⟩ rfl
  · next lost =>
    refine iff_of_false ?_ fun both => lost both.1
    simp [answeredOnce_some]

theorem answeredOnce_back {after : ManagerState} (msg : ReqrespMsg) :
    AnsweredOnce (arrive wire after [⟨s.neuNodeManagerGetPipe dashboardName, msg⟩]) ↔
      Linked wire s ∧ (dashbPluginRequest msg.body).isSome = true :=
  answeredOnce_one _

theorem carried_read {body : ReqrespBody}
    (reads : body = .reqGetPlugin ∨ (∃ type plugin node, body = .reqGetNode type plugin node) ∨
      body = .reqGetNodesState) :
    CarriedOnce w opens wire s pipe ctx (.body body) ↔ Linked wire s := by
  have listed (msg : ReqrespMsg) (known : (dashbPluginRequest msg.body).isSome = true) :
      AnsweredOnce (arrive wire s [⟨s.neuNodeManagerGetPipe dashboardName, msg⟩]) ↔
        Linked wire s := by
    rw [answeredOnce_back, and_iff_left known]
  obtain rfl | ⟨type, plugin, node, rfl⟩ | rfl := reads
  · exact listed ⟨_, _, _, .respGetPlugin _⟩ rfl
  · exact listed ⟨_, _, _, .respGetNode _⟩ rfl
  · exact listed ⟨_, _, _, .respGetNodesState _⟩ rfl

theorem addNode_codes {node plugin : CStr} {added : ManagerState × Int}
    (ran : neuManagerAddNode w opens s node plugin = some added) :
    added.2 ∈ [NEU_ERR_LIBRARY_NOT_FOUND, NEU_ERR_LIBRARY_NOT_ALLOW_CREATE_INSTANCE,
      NEU_ERR_NODE_EXIST, NEU_ERR_SUCCESS] := by
  unfold neuManagerAddNode at ran
  split at ran
  · cases ran
    simp
  · split_ifs at ran
    · cases ran
      simp
    · cases ran
      simp
    · dsimp only at ran
      split at ran
      · cases ran
      · cases ran
        simp

theorem known_serve (manager : NeuManager) (node : CStr) (served : Served) (name : CStr) :
    known (manager.serve node served) name = known manager name := by
  rw [known, known, find_serve]
  split
  · rw [Option.isSome_map]
  · rfl

theorem known_serveNode (manager : NeuManager) (node : CStr) (request : NeuAdapter → Served)
    (name : CStr) : known (serveNode manager node request) name = known manager name := by
  unfold serveNode
  split
  · rfl
  · exact known_serve ..

/-- An addition leaves every pipe as it is; a new node is not bound yet. -/
theorem getPipe_addNode {node plugin : CStr} {added : ManagerState × Int}
    (ran : neuManagerAddNode w opens s node plugin = some added) (name : CStr) :
    added.1.neuNodeManagerGetPipe name = s.neuNodeManagerGetPipe name := by
  unfold neuManagerAddNode at ran
  split at ran
  · cases ran
    rfl
  · split_ifs at ran with _ taken
    · cases ran
      rfl
    · cases ran
      rfl
    · dsimp only at ran
      split at ran
      · cases ran
      · next adapter created =>
        cases ran
        obtain ⟨named, -, -⟩ := created_named created
        unfold neuNodeManagerGetPipe
        rw [known_serveNode, known, known, called, find_record, find_add, named]
        by_cases own : name = node
        · subst own
          have absent : s.manager.neuNodeManagerFind name = none := by simpa [known] using taken
          simp [absent]
        · simp [own]

theorem carried_addNode (node plugin : CStr) :
    CarriedOnce w opens wire s pipe ctx (.body (.reqAddNode node plugin)) ↔
      Creates w opens s node plugin ∧ Linked wire s := by
  have loop : managerLoop w opens s pipe ⟨ctx, dashboardName, .empty, .reqAddNode node plugin⟩ =
      (neuManagerAddNode w opens s node plugin).map fun added =>
        (added.1, reply added.1 ⟨ctx, dashboardName, dashboardName, .reqAddNode node plugin⟩
          (.respError added.2)) := rfl
  rw [← addNode_some, CarriedOnce, carried, loop]
  cases ran : neuManagerAddNode w opens s node plugin with
  | none => exact iff_of_false not_answeredOnce_none fun both => Bool.false_ne_true both.1
  | some added =>
    have handled : ∀ code ∈ [NEU_ERR_LIBRARY_NOT_FOUND, NEU_ERR_LIBRARY_NOT_ALLOW_CREATE_INSTANCE,
        NEU_ERR_NODE_EXIST, NEU_ERR_SUCCESS], (neuHttpResponse code).isSome = true := by decide
    have answered : (dashbPluginRequest (.respError added.2)).isSome = true :=
      handled _ (addNode_codes ran)
    have same : Linked wire added.1 ↔ Linked wire s := by
      rw [Linked, Linked, getPipe_addNode ran]
    have one : AnsweredOnce (arrive wire added.1 [⟨added.1.neuNodeManagerGetPipe dashboardName,
        ⟨ctx, dashboardName, dashboardName, .respError added.2⟩⟩]) ↔ Linked wire added.1 ∧ _ :=
      answeredOnce_back _
    constructor
    · intro once
      exact ⟨rfl, same.1 (one.1 once).1⟩
    · intro both
      exact one.2 ⟨same.2 both.2, answered⟩

theorem carried_nodeCtl (node : CStr) (ctl : Int) :
    CarriedOnce w opens wire s pipe ctx (.nodeCtl node ctl) ↔
      CtlAnswered w wire s node ctl ∧ Linked wire s := by
  have loop : managerLoop w opens s pipe ⟨ctx, dashboardName, node, ctlBody node ctl⟩ =
      if known s.manager node then
        some (s, forwardMsg s ⟨ctx, dashboardName, node, ctlBody node ctl⟩ node)
      else some (s, []) := rfl
  rw [CarriedOnce, carried, loop, CtlAnswered]
  by_cases present : known s.manager node = true
  · rw [if_pos present, and_iff_right present, Option.bind_some]
    dsimp only [forwardMsg, List.head?_cons]
    rw [Option.bind_some, reached]
    dsimp only
    cases wire (s.neuNodeManagerGetPipe node) with
    | none => exact iff_of_false (by simp [answeredOnce_some]) (by simp)
    | some own =>
      cases found : s.manager.neuNodeManagerFind own with
      | none => exact iff_of_false (by simp [answeredOnce_some, found]) (by simp [found])
      | some adapter =>
        let served := adapterCtl (w.plugin own) ctl adapter
        let back : ManagerState := { s with manager := s.manager.serve own served }
        have same : Linked wire back ↔ Linked wire s := by
          rw [Linked, Linked, neuNodeManagerGetPipe, neuNodeManagerGetPipe, known_serve]
        have replied : AnsweredOnce (arrive wire back [⟨back.neuNodeManagerGetPipe dashboardName,
            ⟨ctx, node, dashboardName, .respError served.rv⟩⟩]) ↔
              Linked wire back ∧ (neuHttpResponse served.rv).isSome = true := answeredOnce_back _
        rw [same, and_comm] at replied
        rw [Option.bind_some, found, Option.map_some]
        refine Iff.trans replied ?_
        simp [served, found]
  · rw [if_neg present]
    exact iff_of_false (by simp [answeredOnce_some]) fun both => present both.1.1

end

end

section
variable {Token : Type} (w : World) (opens : CStr → Bool) (wire : Nat → Option CStr)
  (s : ManagerState) (rest : RestWorld Token)

def Finishes (req : HttpRequest) : Route → Prop
  | .ping => True
  | .login => BodyGood req (decodeLoginReq rest) fun (pass, _) =>
      passwordLen pass = true ∨ rest.neuJwtNew.isSome = true
  | .password => Unlocked rest req (BodyGood req (decodePasswordReq rest) fun _ => True)
  | .addNode => Unlocked rest req <| BodyGood req (decodeAddNodeReq rest) fun (plugin, name) =>
      NEU_NODE_NAME_LEN ≤ name.strlen ∨ plugin.strlen < NEU_PLUGIN_NAME_LEN ∧
        (rest.sendFails = true ∨ Creates w opens s name plugin ∧ Linked wire s)
  | .updateNode => Unlocked rest req <| BodyGood req (decodeUpdateNodeReq rest) fun (name, newName) =>
      NEU_NODE_NAME_LEN ≤ name.strlen ∨ NEU_NODE_NAME_LEN ≤ newName.strlen ∨
        newName.strlen = 0 ∨ rest.sendFails = true
  | .deleteNode => Unlocked rest req <| BodyGood req (decodeDelNodeReq rest) fun name =>
      name.strlen < NEU_NODE_NAME_LEN ∧ rest.sendFails = true
  | .getNode => Unlocked rest req <|
      (neuHttpGetParamNodeType rest.errno req.url (.lit "type")).isSome = true →
        rest.sendFails = true ∨ Linked wire s
  | .addPlugin => Unlocked rest req <| BodyGood req (decodeAddPluginReq rest) fun library =>
      library.strlen < NEU_PLUGIN_LIBRARY_LEN ∧ rest.sendFails = true
  | .getPlugin => Unlocked rest req (rest.sendFails = true ∨ Linked wire s)
  | .deletePlugin => Unlocked rest req <| BodyGood req (decodeDelPluginReq rest) fun plugin =>
      NEU_PLUGIN_NAME_LEN < plugin.strlen ∨
        plugin.strlen < NEU_PLUGIN_NAME_LEN ∧ rest.sendFails = true
  | .nodeCtl => Unlocked rest req <| BodyGood req (decodeNodeCtlReq rest) fun (node, cmd) =>
      node.strlen < NEU_NODE_NAME_LEN ∧ (rest.sendFails = true ∨
        CtlAnswered w wire s node (cmd.bmod (2 ^ 32)) ∧ Linked wire s)
  | .nodeState => Unlocked rest req <|
      rest.sendFails = true ∨ paramGiven rest req "node" NEU_NODE_NAME_LEN = false ∧ Linked wire s
  | .logLevel => Unlocked rest req <| BodyGood req (decodeUpdateLogLevelReq rest) fun node =>
      node.strlen < NEU_NODE_NAME_LEN ∧ rest.sendFails = true ∧
        rest.zlogLevelSwitch node = 0 ∧ rest.zlogLevelSwitch (.lit "neuron") = 0

end

section
variable {w : World} {opens : CStr → Bool} {wire : Nat → Option CStr} {s : ManagerState}
  {pipe ctx : Nat} {Token : Type} {rest : RestWorld Token} {req : HttpRequest}

theorem bodyGood_congr {α : Type} {decode : Json → Decoded α} {good other : α → Prop}
    (same : ∀ decoded, good decoded ↔ other decoded) :
    BodyGood req decode good ↔ BodyGood req decode other := by
  rw [show good = other from funext fun decoded => propext (same decoded)]

theorem unlocked_congr {good other : Prop} (same : good ↔ other) :
    Unlocked rest req good ↔ Unlocked rest req other := by rw [propext same]

theorem paramText_short (name : String) {size : Nat} (room : 0 < size) :
    (paramText rest req name size).strlen < size := by
  have cut (written : List Char) : (CStr.read (written ++ ['\x00'])).strlen ≤ written.length := by
    rw [CStr.strlen, CStr.read]
    dsimp only
    induction written with
    | nil => decide
    | cons c rest ih =>
      rw [List.cons_append, List.takeWhile_cons]
      split
      · exact Nat.succ_le_succ ih
      · exact Nat.zero_le _
  unfold paramText neuHttpGetParamStr
  cases getParam req.url (.lit name) with
  | none => exact room
  | some value =>
    dsimp only
    rw [neuUrlDecode]
    obtain ⟨ran, -⟩ | ⟨ran, -⟩ := decodeLoop_eq rest.lonePrefix
      ((req.url.drop value.start).chars.drop value.len)
      ((req.url.drop value.start).chars.take value.len) size
    · have short := List.length_take_le size (spelled rest.lonePrefix
        ((req.url.drop value.start).chars.drop value.len)
        ((req.url.drop value.start).chars.take value.len))
      rw [ran, Option.map_some]
      dsimp only
      split_ifs with given less
      · exact (cut _).trans_lt less
      · apply (cut _).trans_lt
        rw [List.length_dropLast]
        omega
      · exact room
    · rw [ran]
      exact room

/-- A type of message that the manager has no case for is answered only if it cannot be sent. -/
theorem reactsOnce_stops {msg : RestMsg} (other : carried w opens wire s pipe ctx msg = none) :
    ReactsOnce w opens wire s pipe ctx (neuPluginOp rest msg) ↔ rest.sendFails = true := by
  have never : ¬ CarriedOnce w opens wire s pipe ctx msg := by
    rw [CarriedOnce, other]
    exact not_answeredOnce_none
  rw [reactsOnce_pluginOp, or_iff_left never]

/-- With a response before the message is sent, no second one is the only one. -/
theorem reactsOnce_early (early : List NngHttpStatus) (node : CStr) :
    ReactsOnce w opens wire s pipe ctx (do
      let node ← strcpy NEU_NODE_NAME_LEN node
      let last ← neuPluginOp rest (.updateLogLevel node)
      return ⟨early ++ last.responses, last.sent⟩) ↔
    node.strlen < NEU_NODE_NAME_LEN ∧ rest.sendFails = true ∧ early = [] := by
  rw [reactsOnce_strcpy, ← exists_prop]
  apply exists_congr
  intro fits
  unfold neuPluginOp
  by_cases busy : rest.sendFails = true
  · have status : errorResponse NEU_ERR_IS_BUSY = some ⟨[.internalServerError], none⟩ := rfl
    rw [if_pos busy, status, and_iff_right busy]
    simp [ReactsOnce, react, answeredOnce_some]
  · rw [if_neg busy]
    exact iff_of_false not_answeredOnce_none fun refused => busy refused.1

theorem reactsOnce_logLevel (node : CStr) :
    ReactsOnce w opens wire s pipe ctx (do
      let failed := [node, .lit "neuron"].filter fun category => rest.zlogLevelSwitch category ≠ 0
      let early ← failed.mapM fun _ => neuHttpResponse NEU_ERR_EINTERNAL
      let node ← strcpy NEU_NODE_NAME_LEN node
      let last ← neuPluginOp rest (.updateLogLevel node)
      return ⟨early ++ last.responses, last.sent⟩) ↔
    node.strlen < NEU_NODE_NAME_LEN ∧ rest.sendFails = true ∧
      rest.zlogLevelSwitch node = 0 ∧ rest.zlogLevelSwitch (.lit "neuron") = 0 := by
  have answers (failed : List CStr) : (failed.mapM fun _ => neuHttpResponse NEU_ERR_EINTERNAL) =
      some (failed.map fun _ => .internalServerError) := by
    rw [show neuHttpResponse NEU_ERR_EINTERNAL = pure .internalServerError from rfl, List.mapM_pure]
    rfl
  dsimp only
  rw [answers, Option.bind_eq_bind, Option.bind_some, reactsOnce_early, List.map_eq_nil_iff]
  simp [List.filter_eq_nil_iff]

theorem reactsOnce_nodeState :
    ReactsOnce w opens wire s pipe ctx (
      if paramGiven rest req "node" NEU_NODE_NAME_LEN then do
        let node ← strcpy NEU_NODE_NAME_LEN (paramText rest req "node" NEU_NODE_NAME_LEN)
        neuPluginOp rest (.getNodeState node)
      else neuPluginOp rest (.body .reqGetNodesState)) ↔
    rest.sendFails = true ∨
      paramGiven rest req "node" NEU_NODE_NAME_LEN = false ∧ Linked wire s := by
  by_cases given : paramGiven rest req "node" NEU_NODE_NAME_LEN = true
  · have short := @paramText_short _ rest req "node" NEU_NODE_NAME_LEN (by decide)
    rw [if_pos given, reactsOnce_strcpy, given]
    rw [exists_prop_of_true short, reactsOnce_stops rfl]
    simp
  · have plain : paramGiven rest req "node" NEU_NODE_NAME_LEN = false := by simpa using given
    rw [if_neg given, reactsOnce_pluginOp, carried_read (.inr (.inr rfl)), and_iff_right plain]

theorem reactsOnce_login (name pass : CStr) :
    ReactsOnce w opens wire s pipe ctx (
      if passwordLen pass then errorResponse NEU_ERR_INVALID_PASSWORD_LEN
      else if neuUserCheckPassword (neuLoadUser name.chars) pass.chars then
        match rest.neuJwtNew with
        | some _ => some ⟨[.ok], none⟩
        | none => (neuHttpResponse NEU_ERR_NEED_TOKEN).map fun status => ⟨[status, .ok], none⟩
      else errorResponse NEU_ERR_INVALID_PASSWORD) ↔
    passwordLen pass = true ∨ rest.neuJwtNew.isSome = true := by
  by_cases length : passwordLen pass = true
  · rw [if_pos length, reactsOnce_error]
    exact iff_of_true rfl (.inl length)
  · have checked : neuUserCheckPassword (neuLoadUser name.chars) pass.chars = true := rfl
    rw [if_neg length, if_pos checked, or_iff_right length]
    cases rest.neuJwtNew with
    | some token => exact iff_of_true ⟨s, .ok, rfl⟩ rfl
    | none =>
      have status : neuHttpResponse NEU_ERR_NEED_TOKEN = some .unauthorized := rfl
      simp [status, ReactsOnce, react, answeredOnce_some]

/-- A new password is always taken, as the old hash is no hash. -/
theorem changePassword_handled (change : NeuJsonPasswordReq) :
    (neuHttpResponse (changePassword rest change)).isSome = true := by
  unfold changePassword
  by_cases length : passwordLen change.newPass = true
  · rw [if_pos length]
    rfl
  · have named : change.newPass.chars ≠ [] := by
      intro empty
      simp [passwordLen, CStr.strlen, empty, NEU_USER_PASSWORD_MIN_LEN] at length
    have md : magicDigest rest.evp ['5'] = some (rest.evp.sha256, groups256) := rfl
    have read : saltRounds "sword".toList = some ("sword".toList, none) := by decide
    have hashed := shacrypt_text md read named (by decide)
    have salt : (neuLoadUser change.name.chars).hash.drop 3 = "sword".toList := rfl
    have other : (neuLoadUser change.name.chars).hash ≠ hashText ['5'] none
        ("sword".toList.take SALT_LEN_MAX)
        (encoded rest.evp.sha256 groups256 change.newPass.chars
          ("sword".toList.take SALT_LEN_MAX) none) := by
      intro same
      have first := congrArg List.head? same
      cases first
    have updated : (neuUserUpdatePassword rest.evp (neuLoadUser change.name.chars)
        change.newPass.chars).2 = 0 := by
      simp only [neuUserUpdatePassword, hashPassword, salt, hashed, if_neg other]
    rw [if_neg length]
    simp only [neuUserCheckPassword, updated]
    rfl

/- Route by route. -/

theorem login_finishes : ReactsOnce w opens wire s pipe ctx (handle rest .login req) ↔
    Finishes w opens wire s rest req .login := by
  rw [Finishes, handle, handleLogin, reactsOnce_process]
  apply bodyGood_congr
  rintro ⟨pass, name⟩
  exact reactsOnce_login name pass

theorem password_finishes : ReactsOnce w opens wire s pipe ctx (handle rest .password req) ↔
    Finishes w opens wire s rest req .password := by
  rw [Finishes, handle, handlePassword, reactsOnce_validate, reactsOnce_process]
  apply unlocked_congr
  apply bodyGood_congr
  intro change
  rw [reactsOnce_error]
  exact iff_of_true (changePassword_handled change) trivial

theorem addNode_finishes : ReactsOnce w opens wire s pipe ctx (handle rest .addNode req) ↔
    Finishes w opens wire s rest req .addNode := by
  rw [Finishes, handle, handleAddAdapter, reactsOnce_validate, reactsOnce_process]
  apply unlocked_congr
  apply bodyGood_congr
  rintro ⟨plugin, name⟩
  dsimp only
  by_cases long : NEU_NODE_NAME_LEN ≤ name.strlen
  · rw [if_pos long, reactsOnce_error]
    exact iff_of_true rfl (.inl long)
  · rw [if_neg long, reactsOnce_strcpy, or_iff_right long, ← exists_prop]
    simp only [reactsOnce_pluginOp, carried_addNode]

theorem updateNode_finishes : ReactsOnce w opens wire s pipe ctx (handle rest .updateNode req) ↔
    Finishes w opens wire s rest req .updateNode := by
  rw [Finishes, handle, handleUpdateAdapter, reactsOnce_validate, reactsOnce_process]
  apply unlocked_congr
  apply bodyGood_congr
  rintro ⟨name, newName⟩
  dsimp only
  split_ifs with long longNew empty
  · rw [reactsOnce_error]
    exact iff_of_true rfl (.inl long)
  · rw [reactsOnce_error]
    exact iff_of_true rfl (.inr (.inl longNew))
  · rw [reactsOnce_error]
    exact iff_of_true rfl (.inr (.inr (.inl empty)))
  · rw [reactsOnce_stops rfl, or_iff_right long, or_iff_right longNew, or_iff_right empty]

theorem getNode_finishes : ReactsOnce w opens wire s pipe ctx (handle rest .getNode req) ↔
    Finishes w opens wire s rest req .getNode := by
  rw [Finishes, handle, handleGetAdapter, reactsOnce_validate]
  apply unlocked_congr
  cases neuHttpGetParamNodeType rest.errno req.url (.lit "type") with
  | none =>
    dsimp only
    rw [reactsOnce_error]
    exact iff_of_true rfl fun given => absurd given Bool.false_ne_true
  | some type =>
    dsimp only
    rw [reactsOnce_strcpy, exists_prop_of_true (paramText_short _ (by decide)), reactsOnce_strcpy,
      exists_prop_of_true (paramText_short _ (by decide)), reactsOnce_pluginOp,
      carried_read (.inr (.inl ⟨_, _, _, rfl⟩)), Option.isSome_some, imp_iff_right rfl]

theorem getPlugin_finishes : ReactsOnce w opens wire s pipe ctx (handle rest .getPlugin req) ↔
    Finishes w opens wire s rest req .getPlugin := by
  rw [Finishes, handle, handleGetPlugin, reactsOnce_validate]
  apply unlocked_congr
  rw [reactsOnce_pluginOp, carried_read (.inl rfl)]

theorem deletePlugin_finishes : ReactsOnce w opens wire s pipe ctx (handle rest .deletePlugin req) ↔
    Finishes w opens wire s rest req .deletePlugin := by
  rw [Finishes, handle, handleDelPlugin, reactsOnce_validate, reactsOnce_process]
  apply unlocked_congr
  apply bodyGood_congr
  intro plugin
  by_cases fits : plugin.strlen ≤ NEU_PLUGIN_NAME_LEN
  · rw [if_pos fits, reactsOnce_strcpy, or_iff_right (Nat.not_lt.2 fits), ← exists_prop]
    exact exists_congr fun _ => reactsOnce_stops rfl
  · rw [if_neg fits, reactsOnce_error]
    exact iff_of_true rfl (.inl (Nat.lt_of_not_le fits))

theorem nodeCtl_finishes : ReactsOnce w opens wire s pipe ctx (handle rest .nodeCtl req) ↔
    Finishes w opens wire s rest req .nodeCtl := by
  rw [Finishes, handle, handleNodeCtl, reactsOnce_validate, reactsOnce_process]
  apply unlocked_congr
  apply bodyGood_congr
  rintro ⟨node, cmd⟩
  dsimp only
  rw [reactsOnce_strcpy, ← exists_prop]
  simp only [reactsOnce_pluginOp, carried_nodeCtl]

/-- The two requests that copy a name and send a type which the manager has no case for. -/
theorem sent_finishes {decode : Json → Decoded CStr} (size : Nat) (msg : CharArray size → RestMsg)
    (other : ∀ name, carried w opens wire s pipe ctx (msg name) = none) :
    ReactsOnce w opens wire s pipe ctx (validateJwt rest req <| processHttpRequest req decode
      fun name => do
        let name ← strcpy size name
        neuPluginOp rest (msg name)) ↔
    Unlocked rest req (BodyGood req decode fun name =>
      name.strlen < size ∧ rest.sendFails = true) := by
  rw [reactsOnce_validate, reactsOnce_process]
  apply unlocked_congr
  apply bodyGood_congr
  intro name
  rw [reactsOnce_strcpy, ← exists_prop]
  exact exists_congr fun _ => reactsOnce_stops (other _)

end

end Cpm
