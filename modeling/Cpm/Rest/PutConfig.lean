import Cpm.Lib.Dialogue
import Cpm.Rest.GlobalConfig
import Cpm.Utils.Http

/-! `PUT` of the global configuration, from `global_config_handle.c`: the nodes are deleted and the
request's entries added, one request at a time. -/
namespace Cpm

open Lib Lib.Dialogue

structure PutContext where
  state : ContextState
  error : Int
  req : Option NeuJsonGlobalConfigReq
  nodes : Option (List NeuRespNodeInfo)
  idx : Nat

structure PutReply where
  status : NngHttpStatus
  error : Int
  deriving DecidableEq, Repr

/-- The context until it is freed, the requests given to `neu_plugin_op` and the HTTP replies. -/
structure PutWorld where
  context : Option PutContext
  issued : List RestReq
  replies : List PutReply

/- Reading `data` as the state expects it: without a result where it is of another type. -/

def readNodes : Option RespData → Option (List NeuRespNodeInfo)
  | some (.getNode nodes) => some nodes
  | _ => none

def readError : Option RespData → Option Int
  | some (.error error _) => some error
  | _ => none

/-- The error stands where the bytes behind a `neu_resp_error_t` are. -/
def readAddTag : Option RespData → Option Int
  | some (.addTag _ error) => some error
  | some (.error _ behind) => some behind
  | _ => none

/- The requests. What becomes of the texts that move into one is not followed. -/

def delNode (info : NeuRespNodeInfo) : RestReq := .delNode info.node

def addNode (req : NeuJsonGetNodesRespNode) : Option RestReq := do
  return .addNode (← strcpy _ req.name) (← strcpy _ req.plugin)

def addGroup (data : NeuJsonGetDriverGroupRespGroup) : Option RestReq := do
  return .addGroup (← strcpy _ data.driver) (← strcpy _ data.group)
    (UInt32.ofNat (data.interval % 2 ^ 32).toNat)

/-- The document has 64 bits for the type and the attribute, the tag 32. -/
def reqTag (casts : CastOps) (tag : NeuJsonTag) : ReqTag where
  name := tag.name
  address := tag.address
  attributes := (tag.attributes % 2 ^ 32).toNat
  type := storedType tag.type
  precision := UInt8.ofNat (tag.precision % 2 ^ 8).toNat
  decimal := tag.decimal
  description := tag.description.getD .empty
  staticValue :=
    if isStaticAttribute tag.attributes then staticValueOf casts (storedType tag.type) tag.value
    else none

def addTag (casts : CastOps) (data : NeuJsonAddTagsReq) : Option RestReq := do
  return .addTag (← strcpy _ data.node) (← strcpy _ data.group) (UInt16.ofNat data.tags.length)
    (data.tags.map (reqTag casts))

def addSubscription (data : NeuJsonSubscribeReq) : Option RestReq := do
  return .subscribeGroup (← strcpy _ data.app) (← strcpy _ data.driver) (← strcpy _ data.group)
    data.params

def addSetting (data : NeuJsonNodeSettingReq) : Option RestReq := do
  return .nodeSetting (← strcpy _ data.node) data.setting

/- `put_context_next`. -/

abbrev Switched := PutContext × List RestReq

def NEXT (ctx : PutContext) (request : RestReq) (sent : Bool) (advance : PutContext → PutContext) :
    Switched :=
  if sent then (advance { ctx with error := 0 }, [request])
  else ({ ctx with error := NEU_ERR_IS_BUSY, state := .stop }, [request])

def checked (ctx : PutContext) (error : Option Int) (go : Option Switched) : Option Switched :=
  if 0 < ctx.idx then
    error.bind fun error => if error ≠ 0 then some ({ ctx with error, state := .stop }, []) else go
  else go

section
variable {α : Type}

def skipStatic (static : α → Bool) (items : List α) (idx : Nat) : Nat :=
  idx + ((items.drop idx).takeWhile static).length

def sendOrFall (items : List α) (send : α → Option RestReq) (fall : PutContext → Option Switched)
    (ctx : PutContext) (sent : Bool) : Option Switched :=
  match items[ctx.idx]? with
  | some item => (send item).map fun request =>
      NEXT ctx request sent fun ctx => { ctx with idx := ctx.idx + 1 }
  | none => fall ctx

end

def caseAddSetting (req : NeuJsonGlobalConfigReq) (ctx : PutContext) (data : Option RespData)
    (sent : Bool) : Option Switched :=
  checked ctx (readError data) <| sendOrFall req.settings addSetting
    (fun ctx => some ({ ctx with state := .stop }, [])) ctx sent

def caseAddSubscription (req : NeuJsonGlobalConfigReq) (ctx : PutContext) (data : Option RespData)
    (sent : Bool) : Option Switched :=
  checked ctx (readError data) <| sendOrFall req.subscriptions addSubscription
    (fun ctx => caseAddSetting req { ctx with idx := 0, state := .addSetting } data sent) ctx sent

def caseAddTag (casts : CastOps) (req : NeuJsonGlobalConfigReq) (ctx : PutContext)
    (data : Option RespData) (sent : Bool) : Option Switched :=
  checked ctx (readAddTag data) <| sendOrFall req.tags (addTag casts)
    (fun ctx => caseAddSubscription req { ctx with idx := 0, state := .addSubscription } data sent)
    ctx sent

def caseAddGroup (casts : CastOps) (req : NeuJsonGlobalConfigReq) (ctx : PutContext)
    (data : Option RespData) (sent : Bool) : Option Switched :=
  checked ctx (readError data) <| sendOrFall req.groups addGroup
    (fun ctx => caseAddTag casts req { ctx with idx := 0, state := .addTag } data sent) ctx sent

def staticJsonNode (node : NeuJsonGetNodesRespNode) : Bool := isStaticNode node.name node.plugin

def caseAddNode (casts : CastOps) (req : NeuJsonGlobalConfigReq) (ctx : PutContext)
    (data : Option RespData) (sent : Bool) : Option Switched :=
  checked ctx (readError data) <| sendOrFall req.nodes addNode
    (fun ctx => caseAddGroup casts req { ctx with idx := 0, state := .addGroup } data sent)
    { ctx with idx := skipStatic staticJsonNode req.nodes ctx.idx } sent

def staticNodeInfo (info : NeuRespNodeInfo) : Bool := isStaticNode info.node.val info.plugin.val

/-- After the last node: the drivers are asked for, or the entries of the request added. -/
def nodesDeleted (casts : CastOps) (data : Option RespData) (sent : Bool) (ctx : PutContext) :
    Option Switched :=
  if ctx.state = .delApp then
    some (NEXT { ctx with nodes := none } (.getNode .driver) sent fun ctx =>
      { ctx with state := .getDriver })
  else ctx.req.bind fun req =>
    caseAddNode casts req { ctx with nodes := none, idx := 0, state := .addNode } data sent

/-- `STATE_DEL_APP` and `STATE_DEL_DRIVER`; without nodes the array would be read through NULL. -/
def caseDelNode (casts : CastOps) (ctx : PutContext) (data : Option RespData) (sent : Bool) :
    Option Switched :=
  ctx.nodes.bind fun nodes =>
    checked ctx (readError data) <| sendOrFall nodes (fun info => some (delNode info))
      (nodesDeleted casts data sent)
      { ctx with idx := skipStatic staticNodeInfo nodes ctx.idx } sent

def putSwitch (casts : CastOps) (ctx : PutContext) (data : Option RespData) (sent : Bool) :
    Option Switched :=
  match ctx.state with
  | .start => some (NEXT ctx (.getNode .app) sent fun ctx => { ctx with state := .getApp })
  | .getApp | .getDriver =>
    (readNodes data).bind fun nodes => caseDelNode casts
      { ctx with
        nodes := some nodes
        idx := 0
        state := if ctx.state = .getApp then .delApp else .delDriver } data sent
  | .delApp | .delDriver => caseDelNode casts ctx data sent
  | .addNode => ctx.req.bind fun req => caseAddNode casts req ctx data sent
  | .addGroup => ctx.req.bind fun req => caseAddGroup casts req ctx data sent
  | .addTag => ctx.req.bind fun req => caseAddTag casts req ctx data sent
  | .addSubscription => ctx.req.bind fun req => caseAddSubscription req ctx data sent
  | .addSetting => ctx.req.bind fun req => caseAddSetting req ctx data sent
  | _ => some ({ ctx with error := NEU_ERR_EINTERNAL, state := .stop }, [])

def putReply (error : Int) : Option PutReply :=
  (neuHttpResponse error).map fun status => ⟨status, error⟩

/-- The reply is sent and the context freed in the state at the end. -/
def putContextNext (casts : CastOps) (w : PutWorld) (data : Option RespData) (sent : Bool) :
    Option PutWorld := do
  let ctx ← w.context
  let (ctx, requests) ← putSwitch casts ctx data sent
  let issued := w.issued ++ requests
  if ctx.state = .stop then
    (putReply ctx.error).map fun reply => ⟨none, issued, w.replies ++ [reply]⟩
  else return ⟨some ctx, issued, w.replies⟩

/-- Without a result where the request is written into a context that was freed. -/
def handlePutGlobalConfig (casts : CastOps) (req : NeuJsonGlobalConfigReq) (sent : Bool) :
    Option PutWorld := do
  let w ← putContextNext casts ⟨some ⟨.start, 0, none, none, 0⟩, [], []⟩ none sent
  let ctx ← w.context
  return { w with context := some { ctx with req := some req } }

def putGlobalConfig (casts : CastOps) (req : NeuJsonGlobalConfigReq) (turns : List (Turn RespData)) :
    Option PutWorld := do
  let w ← handlePutGlobalConfig casts req (nextSent turns)
  converse (fun w answer sent => putContextNext casts w (some answer) sent)
    (fun w => w.context.isNone) w turns

/- What the requests and their answers are, in order. -/

def errorOf : RespData → Int
  | .error error _ => error
  | .addTag _ error => error
  | _ => 0

def putVerdict (_ : RestReq) (answer : RespData) : Option Int :=
  if errorOf answer = 0 then none else some (errorOf answer)

/-- Each request is answered by its own type or by an error. -/
def PutAnswers (apps drivers : List NeuRespNodeInfo) : RestReq → RespData → Prop
  | .getNode type, answer => answer = .getNode (if type = .app then apps else drivers) ∨
      ∃ error behind, answer = .error error behind
  | .addTag _ _ _ _, answer => (∃ index error, answer = .addTag index error) ∨
      ∃ error behind, answer = .error error behind
  | _, answer => ∃ error behind, answer = .error error behind

/-- Nodes come as nodes, and an error in place of an answer to added tags stands where theirs
does. -/
def PutReadable : RestReq → RespData → Prop
  | .getNode _, .error _ _ => False
  | .addTag _ _ _ _, .error error behind => behind = error
  | _, _ => True

/-- The error that an answer reports is one that `neu_http_response` has a case for. -/
structure PutAllowed (request : RestReq) (answer : RespData) : Prop where
  readable : PutReadable request answer
  handled : (putReply (errorOf answer)).isSome = true

def delPlan (nodes : List NeuRespNodeInfo) : List RestReq :=
  (nodes.filter fun info => !staticNodeInfo info).map delNode

/-- Without a result where a string does not fit its array. -/
def addPlan (casts : CastOps) (req : NeuJsonGlobalConfigReq) : Option (List RestReq) := do
  let nodes ← (req.nodes.filter fun node => !staticJsonNode node).mapM addNode
  let groups ← req.groups.mapM addGroup
  let tags ← req.tags.mapM (addTag casts)
  let subscriptions ← req.subscriptions.mapM addSubscription
  let settings ← req.settings.mapM addSetting
  return nodes ++ (groups ++ (tags ++ (subscriptions ++ settings)))

def putPlan (casts : CastOps) (apps drivers : List NeuRespNodeInfo) (req : NeuJsonGlobalConfigReq) :
    Option (List RestReq) :=
  (addPlan casts req).map fun adds =>
    .getNode .app :: (delPlan apps ++ .getNode .driver :: (delPlan drivers ++ adds))

/- A context that keeps to a plan. -/

section
variable {casts : CastOps} {answers : RestReq → RespData → Prop}

/-- The context waits for the answer to a request: an error ends it, anything else leads on. -/
def Heeds (casts : CastOps) (answers : RestReq → RespData → Prop)
    (further : Bool → Option Switched → Prop) (ctx : PutContext) (request : RestReq) : Prop :=
  ctx.state ≠ .stop ∧ ∀ answer sent, answers request answer →
    (errorOf answer ≠ 0 → ∃ last, putSwitch casts ctx (some answer) sent = some (last, []) ∧
      last.state = .stop ∧ last.error = errorOf answer) ∧
    (errorOf answer = 0 → further sent (putSwitch casts ctx (some answer) sent))

/-- A call of the switch makes the first request of a plan, and the calls after it the others. -/
def Performs (casts : CastOps) (answers : RestReq → RespData → Prop) :
    List RestReq → Bool → Option Switched → Prop
  | [], _, result => ∃ last, result = some (last, []) ∧ last.state = .stop ∧ last.error = 0
  | request :: rest, sent, result => ∃ ctx, result = some (ctx, [request]) ∧
      if sent then Heeds casts answers (Performs casts answers rest) ctx request
      else ctx.state = .stop ∧ ctx.error = NEU_ERR_IS_BUSY

section
variable {α : Type} {items : List α} {send : α → Option RestReq} {static : α → Bool}

theorem drop_skipStatic (static : α → Bool) (items : List α) (idx : Nat) :
    items.drop (skipStatic static items idx) = (items.drop idx).dropWhile static := by
  unfold skipStatic
  rw [← List.drop_drop]
  conv_lhs =>
    arg 2
    rw [← List.takeWhile_append_dropWhile (p := static) (l := items.drop idx)]
  exact List.drop_left ..

theorem skipStatic_none (items : List α) (idx : Nat) :
    skipStatic (fun _ => false) items idx = idx := by
  unfold skipStatic
  cases items.drop idx with
  | nil => rfl
  | cons item rest => rfl

theorem filter_dropWhile (static : α → Bool) (items : List α) :
    (items.dropWhile static).filter (fun item => !static item) =
      items.filter fun item => !static item := by
  induction items with
  | nil => rfl
  | cons item rest ih =>
    cases skipped : static item with
    | true => simp [skipped, ih]
    | false => simp [skipped]

/-- Where the loop over static entries stops: at the end, or at the next entry to be sent. -/
theorem skipStatic_cases (static : α → Bool) (items : List α) (idx : Nat) :
    items[skipStatic static items idx]? = none ∧
        (items.drop idx).filter (fun item => !static item) = [] ∨
      ∃ item, items[skipStatic static items idx]? = some item ∧
        (items.drop idx).filter (fun item => !static item) =
          item :: (items.drop (skipStatic static items idx + 1)).filter fun item => !static item := by
  rw [← filter_dropWhile, ← List.head?_drop, ← List.tail_drop, drop_skipStatic]
  cases left : (items.drop idx).dropWhile static with
  | nil => exact .inl ⟨rfl, rfl⟩
  | cons item rest =>
    have plain : static item = false := by
      have stopped := List.head_dropWhile_not static (l := items.drop idx) (by simp [left])
      simpa only [left, List.head_cons] using stopped
    right
    refine ⟨item, rfl, ?_⟩
    simp [plain]

theorem mapM_cons_some {item : α} {rest : List α} {plan : List RestReq}
    (planned : (item :: rest).mapM send = some plan) :
    ∃ request tail, send item = some request ∧ rest.mapM send = some tail ∧
      plan = request :: tail := by
  rw [List.mapM_cons] at planned
  obtain ⟨request, sends, planned⟩ := Option.bind_eq_some_iff.1 planned
  obtain ⟨tail, further, planned⟩ := Option.bind_eq_some_iff.1 planned
  cases planned
  exact ⟨request, tail, sends, further, rfl⟩

theorem checked_ready {ctx : PutContext} {error : Option Int} {go : Option Switched}
    (ready : ctx.idx = 0 ∨ error = some 0) : checked ctx error go = go := by
  unfold checked
  split
  · next later =>
    rcases ready with first | fine
    · omega
    · rw [fine]
      rfl
  · rfl

theorem checked_failed {ctx : PutContext} {error : Int} {go : Option Switched}
    (later : 0 < ctx.idx) (failed : error ≠ 0) :
    checked ctx (some error) go = some ({ ctx with error, state := .stop }, []) := by
  rw [checked, if_pos later, Option.bind_some, if_pos failed]

/-- One state of the switch: the entries from the index on that are not static, then the states
after it. The induction is on what is still to be sent. -/
theorem stage_performs {good : PutContext → Prop} {read : Option RespData → Option Int}
    {fall : Option RespData → Bool → PutContext → Option Switched} {later : List RestReq}
    (switches : ∀ ctx data sent, good ctx → putSwitch casts ctx data sent = checked ctx (read data)
      (sendOrFall items send (fall data sent)
        { ctx with idx := skipStatic static items ctx.idx } sent))
    (running : ∀ ctx, good ctx → ctx.state ≠ .stop)
    (steady : ∀ ctx idx, good ctx → good { ctx with idx, error := 0 })
    (calm : ∀ ctx, good ctx → ctx.error = 0)
    (reads : ∀ item request answer, send item = some request → answers request answer →
      read (some answer) = some (errorOf answer))
    (falls : ∀ ctx data sent, good ctx → Performs casts answers later sent (fall data sent ctx))
    {ctx : PutContext} {data : Option RespData} {sent : Bool} {plan : List RestReq}
    (here : good ctx) (ready : ctx.idx = 0 ∨ read data = some 0)
    (planned : ((items.drop ctx.idx).filter fun item => !static item).mapM send = some plan) :
    Performs casts answers (plan ++ later) sent (putSwitch casts ctx data sent) := by
  induction plan generalizing ctx data sent with
  | nil =>
    rw [switches ctx data sent here, checked_ready ready, sendOrFall]
    rcases skipStatic_cases static items ctx.idx with ⟨ends, _⟩ | ⟨item, _, left⟩
    · simp only [ends]
      have same := steady ctx (skipStatic static items ctx.idx) here
      rw [← calm ctx here] at same
      exact falls _ data sent same
    · rw [left] at planned
      obtain ⟨request, tail, _, _, wrong⟩ := mapM_cons_some planned
      cases wrong
  | cons request plan ih =>
    rw [switches ctx data sent here, checked_ready ready, sendOrFall]
    rcases skipStatic_cases static items ctx.idx with ⟨_, left⟩ | ⟨item, found, left⟩
    · rw [left] at planned
      cases planned
    · rw [left] at planned
      obtain ⟨request', tail, sends, further, same⟩ := mapM_cons_some planned
      cases same
      simp only [found, sends, Option.map_some]
      cases sent with
      | false => exact ⟨_, rfl, rfl, rfl⟩
      | true =>
        have after := steady ctx (skipStatic static items ctx.idx + 1) here
        refine ⟨_, rfl, running _ after, ?_⟩
        intro answer more answered
        have reading := reads item request answer sends answered
        constructor
        · intro failed
          rw [switches _ _ more after, reading]
          exact ⟨_, checked_failed (Nat.succ_pos _) failed, rfl, rfl⟩
        · intro fine
          apply ih after _ further
          right
          rw [reading, fine]

end

/- The states, from the last one back. -/

structure PutAt (req : NeuJsonGlobalConfigReq) (state : ContextState) (ctx : PutContext) : Prop where
  here : ctx.state = state
  given : ctx.req = some req
  calm : ctx.error = 0

section
variable {req : NeuJsonGlobalConfigReq} {state : ContextState} {ctx : PutContext}

theorem PutAt.running (active : state ≠ .stop) (here : PutAt req state ctx) : ctx.state ≠ .stop := by
  rw [here.here]
  exact active

theorem PutAt.steady (here : PutAt req state ctx) (idx : Nat) :
    PutAt req state { ctx with idx, error := 0 } := ⟨here.here, here.given, rfl⟩

theorem PutAt.enter (here : PutAt req state ctx) (state' : ContextState)
    (nodes : Option (List NeuRespNodeInfo)) :
    PutAt req state' { ctx with idx := 0, state := state', nodes } := ⟨rfl, here.given, here.calm⟩

theorem addStage_performs {α : Type} {items : List α} {send : α → Option RestReq}
    {read : Option RespData → Option Int}
    {fall : Option RespData → Bool → PutContext → Option Switched} {later : List RestReq}
    (active : state ≠ .stop)
    (switches : ∀ ctx data sent, PutAt req state ctx → putSwitch casts ctx data sent =
      checked ctx (read data) (sendOrFall items send (fall data sent) ctx sent))
    (reads : ∀ item request answer, send item = some request → answers request answer →
      read (some answer) = some (errorOf answer))
    (falls : ∀ ctx data sent, PutAt req state ctx →
      Performs casts answers later sent (fall data sent ctx))
    {data : Option RespData} {sent : Bool} {plan : List RestReq} (here : PutAt req state ctx)
    (first : ctx.idx = 0) (planned : items.mapM send = some plan) :
    Performs casts answers (plan ++ later) sent (putSwitch casts ctx data sent) := by
  have same (ctx : PutContext) (data : Option RespData) (sent : Bool) (here : PutAt req state ctx) :
      putSwitch casts ctx data sent = checked ctx (read data) (sendOrFall items send (fall data sent)
        { ctx with idx := skipStatic (fun _ => false) items ctx.idx } sent) := by
    rw [skipStatic_none]
    exact switches ctx data sent here
  apply stage_performs same (fun ctx => PutAt.running active) (fun ctx idx here => here.steady idx)
    (fun ctx here => here.calm) reads falls here (.inl first)
  rw [first]
  simpa using planned

end

def RestReq.plain : RestReq → Bool
  | .getNode _ => false
  | .addTag _ _ _ _ => false
  | _ => true

def PutGood (apps drivers : List NeuRespNodeInfo) (request : RestReq) (answer : RespData) : Prop :=
  PutAnswers apps drivers request answer ∧ PutAllowed request answer

section
variable {apps drivers : List NeuRespNodeInfo} {req : NeuJsonGlobalConfigReq} {ctx : PutContext}
  {data : Option RespData} {sent : Bool} {plan : List RestReq} {request : RestReq}
  {answer : RespData}

theorem readError_plain (plain : request.plain = true)
    (answered : PutGood apps drivers request answer) :
    readError (some answer) = some (errorOf answer) := by
  have errors : ∃ error behind, answer = .error error behind := by
    cases request with
    | getNode => cases plain
    | addTag => cases plain
    | _ => exact answered.1
  obtain ⟨error, behind, rfl⟩ := errors
  rfl

theorem readAddTag_answer {driver : CharArray NEU_NODE_NAME_LEN}
    {group : CharArray NEU_GROUP_NAME_LEN} {nTag : UInt16} {tags : List ReqTag}
    (answered : PutGood apps drivers (.addTag driver group nTag tags) answer) :
    readAddTag (some answer) = some (errorOf answer) := by
  obtain ⟨⟨index, error, rfl⟩ | ⟨error, behind, rfl⟩, allowed⟩ := answered
  · rfl
  · have same : behind = error := allowed.readable
    rw [same]
    rfl

theorem addSetting_plain {data : NeuJsonNodeSettingReq} (sends : addSetting data = some request) :
    request.plain = true := by
  obtain ⟨node, _, made⟩ := Option.bind_eq_some_iff.1 sends
  cases made
  rfl

theorem addSubscription_plain {data : NeuJsonSubscribeReq}
    (sends : addSubscription data = some request) : request.plain = true := by
  obtain ⟨app, _, sends⟩ := Option.bind_eq_some_iff.1 sends
  obtain ⟨driver, _, sends⟩ := Option.bind_eq_some_iff.1 sends
  obtain ⟨group, _, made⟩ := Option.bind_eq_some_iff.1 sends
  cases made
  rfl

theorem addGroup_plain {data : NeuJsonGetDriverGroupRespGroup}
    (sends : addGroup data = some request) : request.plain = true := by
  obtain ⟨driver, _, sends⟩ := Option.bind_eq_some_iff.1 sends
  obtain ⟨group, _, made⟩ := Option.bind_eq_some_iff.1 sends
  cases made
  rfl

theorem addNode_plain {data : NeuJsonGetNodesRespNode} (sends : addNode data = some request) :
    request.plain = true := by
  obtain ⟨name, _, sends⟩ := Option.bind_eq_some_iff.1 sends
  obtain ⟨plugin, _, made⟩ := Option.bind_eq_some_iff.1 sends
  cases made
  rfl

theorem addTag_request {data : NeuJsonAddTagsReq} (sends : addTag casts data = some request) :
    ∃ driver group nTag tags, request = .addTag driver group nTag tags := by
  obtain ⟨driver, _, sends⟩ := Option.bind_eq_some_iff.1 sends
  obtain ⟨group, _, made⟩ := Option.bind_eq_some_iff.1 sends
  cases made
  exact ⟨_, _, _, _, rfl⟩

theorem caseAddSetting_performs (here : PutAt req .addSetting ctx) (first : ctx.idx = 0)
    (planned : req.settings.mapM addSetting = some plan) :
    Performs casts (PutGood apps drivers) plan sent (caseAddSetting req ctx data sent) := by
  have switches (ctx : PutContext) (data : Option RespData) (sent : Bool)
      (here : PutAt req .addSetting ctx) :
      putSwitch casts ctx data sent = caseAddSetting req ctx data sent := by
    simp only [putSwitch, here.here, here.given, Option.bind_some]
  rw [← switches ctx data sent here, ← List.append_nil plan]
  apply addStage_performs (by decide) switches _ _ here first planned
  · intro item request answer sends answered
    exact readError_plain (addSetting_plain sends) answered
  · intro ctx data sent here
    exact ⟨_, rfl, rfl, here.calm⟩

theorem caseAddSubscription_performs {later : List RestReq} (here : PutAt req .addSubscription ctx)
    (first : ctx.idx = 0) (planned : req.subscriptions.mapM addSubscription = some plan)
    (after : ∀ ctx data sent, PutAt req .addSetting ctx → ctx.idx = 0 →
      Performs casts (PutGood apps drivers) later sent (caseAddSetting req ctx data sent)) :
    Performs casts (PutGood apps drivers) (plan ++ later) sent
      (caseAddSubscription req ctx data sent) := by
  have switches (ctx : PutContext) (data : Option RespData) (sent : Bool)
      (here : PutAt req .addSubscription ctx) :
      putSwitch casts ctx data sent = caseAddSubscription req ctx data sent := by
    simp only [putSwitch, here.here, here.given, Option.bind_some]
  rw [← switches ctx data sent here]
  apply addStage_performs (by decide) switches _ _ here first planned
  · intro item request answer sends answered
    exact readError_plain (addSubscription_plain sends) answered
  · intro ctx data sent here
    exact after _ data sent (here.enter .addSetting ctx.nodes) rfl

theorem caseAddTag_performs {later : List RestReq} (here : PutAt req .addTag ctx)
    (first : ctx.idx = 0) (planned : req.tags.mapM (addTag casts) = some plan)
    (after : ∀ ctx data sent, PutAt req .addSubscription ctx → ctx.idx = 0 →
      Performs casts (PutGood apps drivers) later sent (caseAddSubscription req ctx data sent)) :
    Performs casts (PutGood apps drivers) (plan ++ later) sent
      (caseAddTag casts req ctx data sent) := by
  have switches (ctx : PutContext) (data : Option RespData) (sent : Bool)
      (here : PutAt req .addTag ctx) :
      putSwitch casts ctx data sent = caseAddTag casts req ctx data sent := by
    simp only [putSwitch, here.here, here.given, Option.bind_some]
  rw [← switches ctx data sent here]
  apply addStage_performs (by decide) switches _ _ here first planned
  · intro item request answer sends answered
    obtain ⟨driver, group, nTag, tags, rfl⟩ := addTag_request sends
    exact readAddTag_answer answered
  · intro ctx data sent here
    exact after _ data sent (here.enter .addSubscription ctx.nodes) rfl

theorem caseAddGroup_performs {later : List RestReq} (here : PutAt req .addGroup ctx)
    (first : ctx.idx = 0) (planned : req.groups.mapM addGroup = some plan)
    (after : ∀ ctx data sent, PutAt req .addTag ctx → ctx.idx = 0 →
      Performs casts (PutGood apps drivers) later sent (caseAddTag casts req ctx data sent)) :
    Performs casts (PutGood apps drivers) (plan ++ later) sent
      (caseAddGroup casts req ctx data sent) := by
  have switches (ctx : PutContext) (data : Option RespData) (sent : Bool)
      (here : PutAt req .addGroup ctx) :
      putSwitch casts ctx data sent = caseAddGroup casts req ctx data sent := by
    simp only [putSwitch, here.here, here.given, Option.bind_some]
  rw [← switches ctx data sent here]
  apply addStage_performs (by decide) switches _ _ here first planned
  · intro item request answer sends answered
    exact readError_plain (addGroup_plain sends) answered
  · intro ctx data sent here
    exact after _ data sent (here.enter .addTag ctx.nodes) rfl

theorem caseAddNode_performs {later : List RestReq} (here : PutAt req .addNode ctx)
    (first : ctx.idx = 0)
    (planned : (req.nodes.filter fun node => !staticJsonNode node).mapM addNode = some plan)
    (after : ∀ ctx data sent, PutAt req .addGroup ctx → ctx.idx = 0 →
      Performs casts (PutGood apps drivers) later sent (caseAddGroup casts req ctx data sent)) :
    Performs casts (PutGood apps drivers) (plan ++ later) sent
      (caseAddNode casts req ctx data sent) := by
  have switches (ctx : PutContext) (data : Option RespData) (sent : Bool)
      (here : PutAt req .addNode ctx) :
      putSwitch casts ctx data sent = caseAddNode casts req ctx data sent := by
    simp only [putSwitch, here.here, here.given, Option.bind_some]
  rw [← switches ctx data sent here]
  apply stage_performs switches (fun ctx => PutAt.running (by decide))
    (fun ctx idx here => here.steady idx) (fun ctx here => here.calm) _ _ here (.inl first)
  · rw [first]
    exact planned
  · intro item request answer sends answered
    exact readError_plain (addNode_plain sends) answered
  · intro ctx data sent here
    exact after _ data sent (here.enter .addGroup ctx.nodes) rfl

theorem adds_performed (here : PutAt req .addNode ctx) (first : ctx.idx = 0)
    (planned : addPlan casts req = some plan) :
    Performs casts (PutGood apps drivers) plan sent (caseAddNode casts req ctx data sent) := by
  obtain ⟨nodes, nodesPlan, planned⟩ := Option.bind_eq_some_iff.1 planned
  obtain ⟨groups, groupsPlan, planned⟩ := Option.bind_eq_some_iff.1 planned
  obtain ⟨tags, tagsPlan, planned⟩ := Option.bind_eq_some_iff.1 planned
  obtain ⟨subscriptions, subscriptionsPlan, planned⟩ := Option.bind_eq_some_iff.1 planned
  obtain ⟨settings, settingsPlan, made⟩ := Option.bind_eq_some_iff.1 planned
  cases made
  apply caseAddNode_performs here first nodesPlan
  intro ctx data sent here first
  apply caseAddGroup_performs here first groupsPlan
  intro ctx data sent here first
  apply caseAddTag_performs here first tagsPlan
  intro ctx data sent here first
  apply caseAddSubscription_performs here first subscriptionsPlan
  intro ctx data sent here first
  exact caseAddSetting_performs here first settingsPlan

theorem mapM_some {α β : Type} (f : α → β) (items : List α) :
    items.mapM (fun item => some (f item)) = some (items.map f) := by
  induction items with
  | nil => rfl
  | cons item rest ih => simp [ih]

theorem caseDelNode_performs {state : ContextState} {nodes : List NeuRespNodeInfo}
    {later : List RestReq} (deleting : state = .delApp ∨ state = .delDriver)
    (here : PutAt req state ctx) (first : ctx.idx = 0) (listed : ctx.nodes = some nodes)
    (after : ∀ ctx data sent, PutAt req state ctx →
      Performs casts (PutGood apps drivers) later sent (nodesDeleted casts data sent ctx)) :
    Performs casts (PutGood apps drivers) (delPlan nodes ++ later) sent
      (caseDelNode casts ctx data sent) := by
  have switches (ctx : PutContext) (data : Option RespData) (sent : Bool)
      (at_ : PutAt req state ctx ∧ ctx.nodes = some nodes) :
      putSwitch casts ctx data sent = checked ctx (readError data)
        (sendOrFall nodes (fun info => some (delNode info)) (nodesDeleted casts data sent)
          { ctx with idx := skipStatic staticNodeInfo nodes ctx.idx } sent) := by
    have deletes : putSwitch casts ctx data sent = caseDelNode casts ctx data sent := by
      rcases deleting with rfl | rfl
      · simp only [putSwitch, at_.1.here]
      · simp only [putSwitch, at_.1.here]
    rw [deletes, caseDelNode, at_.2, Option.bind_some]
  have same : caseDelNode casts ctx data sent = putSwitch casts ctx data sent := by
    rw [switches ctx data sent ⟨here, listed⟩, caseDelNode, listed, Option.bind_some]
  rw [same]
  apply stage_performs switches _ _ (fun ctx at_ => at_.1.calm) _ _ ⟨here, listed⟩ (.inl first)
  · rw [first]
    exact mapM_some delNode _
  · intro ctx at_
    rcases deleting with rfl | rfl
    · exact at_.1.running (by decide)
    · exact at_.1.running (by decide)
  · exact fun ctx idx at_ => ⟨at_.1.steady idx, at_.2⟩
  · intro info request answer sends answered
    cases sends
    exact readError_plain rfl answered
  · exact fun ctx data sent at_ => after ctx data sent at_.1

theorem getNodes_heeded {type : NeuNodeType} {state : ContextState} {rest : List RestReq}
    (getting : state = .getApp ∨ state = .getDriver) (here : PutAt req state ctx)
    (deletes : ∀ ctx data sent,
      PutAt req (if state = .getApp then .delApp else .delDriver) ctx → ctx.idx = 0 →
      ctx.nodes = some (if type = .app then apps else drivers) →
      Performs casts (PutGood apps drivers) rest sent (caseDelNode casts ctx data sent)) :
    Heeds casts (PutGood apps drivers) (Performs casts (PutGood apps drivers) rest) ctx
      (.getNode type) := by
  constructor
  · rcases getting with rfl | rfl
    · exact here.running (by decide)
    · exact here.running (by decide)
  · intro answer sent answered
    obtain ⟨rfl | ⟨error, behind, rfl⟩, allowed⟩ := answered
    · constructor
      · intro failed
        exact absurd rfl failed
      · intro _
        have switches : putSwitch casts ctx
            (some (.getNode (if type = .app then apps else drivers))) sent =
              caseDelNode casts { ctx with
                nodes := some (if type = .app then apps else drivers)
                idx := 0
                state := if ctx.state = .getApp then .delApp else .delDriver }
                (some (.getNode (if type = .app then apps else drivers))) sent := by
          rcases getting with rfl | rfl
          · simp only [putSwitch, here.here, readNodes, Option.bind_some]
          · simp only [putSwitch, here.here, readNodes, Option.bind_some]
        rw [switches, here.here]
        exact deletes _ _ sent ⟨rfl, here.given, here.calm⟩ rfl rfl
    · exact allowed.readable.elim

theorem getDriver_heeded (here : PutAt req .getDriver ctx) (planned : addPlan casts req = some plan) :
    Heeds casts (PutGood apps drivers)
      (Performs casts (PutGood apps drivers) (delPlan drivers ++ plan)) ctx (.getNode .driver) := by
  apply getNodes_heeded (.inr rfl) here
  intro ctx data sent here first listed
  apply caseDelNode_performs (.inr rfl) here first listed
  intro ctx data sent here
  have last : ctx.state = .delDriver := here.here
  rw [nodesDeleted, last, if_neg (by decide), here.given, Option.bind_some]
  exact adds_performed ⟨rfl, rfl, here.calm⟩ rfl planned

theorem getApp_heeded (here : PutAt req .getApp ctx) (planned : addPlan casts req = some plan) :
    Heeds casts (PutGood apps drivers) (Performs casts (PutGood apps drivers)
      (delPlan apps ++ .getNode .driver :: (delPlan drivers ++ plan))) ctx (.getNode .app) := by
  apply getNodes_heeded (.inl rfl) here
  intro ctx data sent here first listed
  apply caseDelNode_performs (.inl rfl) here first listed
  intro ctx data sent here
  have last : ctx.state = .delApp := here.here
  rw [nodesDeleted, if_pos last]
  cases sent with
  | false => exact ⟨_, rfl, rfl, rfl⟩
  | true => exact ⟨_, rfl, getDriver_heeded ⟨rfl, here.given, rfl⟩ planned⟩

end

/- Whole runs. -/

def PutAwaits (casts : CastOps) (answers : RestReq → RespData → Prop) (w : PutWorld)
    (past : List (RestReq × RespData)) (request : RestReq) (rest : List RestReq) : Prop :=
  ∃ ctx, w = ⟨some ctx, past.map Prod.fst ++ [request], []⟩ ∧
    Heeds casts answers (Performs casts answers rest) ctx request

def PutStopped (w : PutWorld) (past : List (RestReq × RespData)) (request : RestReq) (error : Int) :
    Prop :=
  ∃ reply, putReply error = some reply ∧ w = ⟨none, past.map Prod.fst ++ [request], [reply]⟩

def putSuccess : PutReply := ⟨.ok, NEU_ERR_SUCCESS⟩

def PutFinished (w : PutWorld) (past : List (RestReq × RespData)) : Prop :=
  w = ⟨none, past.map Prod.fst, [putSuccess]⟩

theorem putContextNext_stops {w : PutWorld} {ctx last : PutContext} {data : Option RespData}
    {sent : Bool} {requests : List RestReq} {reply : PutReply} (opened : w.context = some ctx)
    (switched : putSwitch casts ctx data sent = some (last, requests)) (ends : last.state = .stop)
    (answered : putReply last.error = some reply) :
    putContextNext casts w data sent =
      some ⟨none, w.issued ++ requests, w.replies ++ [reply]⟩ := by
  simp [putContextNext, opened, switched, ends, answered]

theorem putContextNext_goesOn {w : PutWorld} {ctx further : PutContext} {data : Option RespData}
    {sent : Bool} {requests : List RestReq} (opened : w.context = some ctx)
    (switched : putSwitch casts ctx data sent = some (further, requests))
    (running : further.state ≠ .stop) :
    putContextNext casts w data sent = some ⟨some further, w.issued ++ requests, w.replies⟩ := by
  simp [putContextNext, opened, switched, running]

theorem putVerdict_none {request : RestReq} {answer : RespData}
    (outcome : putVerdict request answer = none) : errorOf answer = 0 := by
  unfold putVerdict at outcome
  split at outcome
  · next fine => exact fine
  · cases outcome

theorem putVerdict_some {request : RestReq} {answer : RespData} {error : Int}
    (outcome : putVerdict request answer = some error) :
    errorOf answer ≠ 0 ∧ errorOf answer = error := by
  unfold putVerdict at outcome
  split at outcome
  · cases outcome
  · next failed =>
    cases outcome
    exact ⟨failed, rfl⟩

theorem put_keepsPlan (casts : CastOps) (answers : RestReq → RespData → Prop)
    (handled : ∀ request answer, answers request answer →
      (putReply (errorOf answer)).isSome = true) :
    KeepsPlan (fun w answer sent => putContextNext casts w (some answer) sent)
      (fun w => w.context.isNone) answers NEU_ERR_IS_BUSY putVerdict (PutAwaits casts answers)
      PutStopped PutFinished where
  awaiting := by
    rintro w past request rest ⟨ctx, rfl, _⟩
    rfl
  stopped := by
    rintro w past request error ⟨reply, _, rfl⟩
    rfl
  finished := by
    rintro w past rfl
    rfl
  fails := by
    rintro w past request rest answer error ⟨ctx, rfl, heeds⟩ answered outcome sent
    obtain ⟨failed, rfl⟩ := putVerdict_some outcome
    obtain ⟨last, switched, ends, error⟩ := (heeds.2 answer sent answered).1 failed
    obtain ⟨reply, replied⟩ := Option.isSome_iff_exists.1 (handled request answer answered)
    rw [← error] at replied
    refine ⟨_, putContextNext_stops rfl switched ends replied, reply, ?_, ?_⟩
    · rw [← error]
      exact replied
    · simp
  last := by
    rintro w past request answer ⟨ctx, rfl, heeds⟩ answered outcome sent
    obtain ⟨last, switched, ends, error⟩ := (heeds.2 answer sent answered).2 (putVerdict_none outcome)
    have replied : putReply last.error = some putSuccess := by
      rw [error]
      rfl
    refine ⟨_, putContextNext_stops rfl switched ends replied, ?_⟩
    simp [PutFinished]
  goesOn := by
    rintro w past request following rest answer ⟨ctx, rfl, heeds⟩ answered outcome
    obtain ⟨further, switched, further_heeds⟩ :=
      (heeds.2 answer true answered).2 (putVerdict_none outcome)
    refine ⟨_, putContextNext_goesOn rfl switched further_heeds.1, further, ?_, further_heeds⟩
    simp
  busy := by
    rintro w past request following rest answer ⟨ctx, rfl, heeds⟩ answered outcome
    obtain ⟨last, switched, ends, error⟩ := (heeds.2 answer false answered).2 (putVerdict_none outcome)
    have replied : putReply last.error = some ⟨.internalServerError, NEU_ERR_IS_BUSY⟩ := by
      rw [error]
      rfl
    refine ⟨_, putContextNext_stops rfl switched ends replied, _, rfl, ?_⟩
    simp

theorem handlePut_awaits (apps drivers : List NeuRespNodeInfo) {req : NeuJsonGlobalConfigReq}
    {adds : List RestReq} (planned : addPlan casts req = some adds) :
    ∃ w, handlePutGlobalConfig casts req true = some w ∧
      PutAwaits casts (PutGood apps drivers) w [] (.getNode .app)
        (delPlan apps ++ .getNode .driver :: (delPlan drivers ++ adds)) :=
  ⟨_, rfl, _, rfl, getApp_heeded ⟨rfl, rfl, rfl⟩ planned⟩

theorem putGlobalConfig_reached {apps drivers : List NeuRespNodeInfo}
    {req : NeuJsonGlobalConfigReq} {plan : List RestReq} {turns : List (Turn RespData)}
    (planned : putPlan casts apps drivers req = some plan)
    (good : Answered (PutGood apps drivers) plan turns) (first : nextSent turns = true) :
    ∃ w, putGlobalConfig casts req turns = some w ∧
      Reached (PutAwaits casts (PutGood apps drivers)) PutStopped PutFinished w
        (follow NEU_ERR_IS_BUSY putVerdict [] plan turns) := by
  obtain ⟨adds, added, rfl⟩ := Option.map_eq_some_iff.1 planned
  obtain ⟨start, handled, awaits⟩ := handlePut_awaits apps drivers added
  have keeps := put_keepsPlan casts (PutGood apps drivers) fun _ _ good => good.2.handled
  obtain ⟨w, ran, reached⟩ := keeps.run awaits first good
  refine ⟨w, ?_, reached⟩
  rw [putGlobalConfig, first, handled]
  exact ran

/-- The reply that a dialogue has come to, if its error has one. -/
def putReplies : Progress RestReq RespData Int → Option (List PutReply)
  | .waiting _ _ => some []
  | .stopped _ _ error => (putReply error).map fun reply => [reply]
  | .finished _ => some [putSuccess]

theorem reached_world {answers : RestReq → RespData → Prop} {w : PutWorld}
    {progress : Progress RestReq RespData Int}
    (reached : Reached (PutAwaits casts answers) PutStopped PutFinished w progress) :
    w.issued = progress.issued ∧ putReplies progress = some w.replies ∧
      (w.context = none ↔ w.replies ≠ []) := by
  cases progress with
  | waiting past current =>
    obtain ⟨rest, ctx, rfl, _⟩ := reached
    exact ⟨rfl, rfl, by simp⟩
  | stopped past current error =>
    obtain ⟨reply, replied, rfl⟩ := reached
    exact ⟨rfl, by simp [putReplies, replied], by simp⟩
  | finished past =>
    have world : w = _ := reached
    subst world
    exact ⟨rfl, rfl, by simp⟩

theorem putReplies_success {plan : List RestReq} {turns : List (Turn RespData)}
    (replied : putReplies (follow NEU_ERR_IS_BUSY putVerdict [] plan turns) = some [putSuccess]) :
    (follow NEU_ERR_IS_BUSY putVerdict [] plan turns).issued = plan := by
  cases ends : follow NEU_ERR_IS_BUSY putVerdict [] plan turns with
  | waiting past current =>
    rw [ends] at replied
    cases replied
  | stopped past current error =>
    rw [ends] at replied
    have success : error = 0 := by
      obtain ⟨reply, answers, same⟩ := Option.map_eq_some_iff.1 replied
      obtain ⟨status, _, rfl⟩ := Option.map_eq_some_iff.1 answers
      exact congrArg PutReply.error (List.head_eq_of_cons_eq same)
    rcases follow_stopped ends with busy | ⟨request, answer, outcome⟩
    · rw [success] at busy
      cases busy
    · obtain ⟨failed, same⟩ := putVerdict_some outcome
      exact absurd (same.trans success) failed
  | finished past => simpa [Progress.issued] using follow_finished ends

end

/-- The requests go out in the order of the plan until one fails, and then there is one reply. -/
theorem put_config_in_order (casts : CastOps) (apps drivers : List NeuRespNodeInfo)
    (req : NeuJsonGlobalConfigReq) (plan : List RestReq) (turns : List (Turn RespData))
    (planned : putPlan casts apps drivers req = some plan)
    (answered : Answered (PutAnswers apps drivers) plan turns)
    (allowed : Answered PutAllowed plan turns) (first : nextSent turns = true) :
    ∃ w, putGlobalConfig casts req turns = some w ∧
      w.issued = (follow NEU_ERR_IS_BUSY putVerdict [] plan turns).issued ∧
      some w.replies = putReplies (follow NEU_ERR_IS_BUSY putVerdict [] plan turns) ∧
      (w.context = none ↔ w.replies ≠ []) ∧ w.issued <+: plan ∧
      (w.replies = [putSuccess] → w.issued = plan) := by
  have good : Answered (PutGood apps drivers) plan turns :=
    fun pair inside => ⟨answered pair inside, allowed pair inside⟩
  obtain ⟨w, ran, reached⟩ := putGlobalConfig_reached planned good first
  obtain ⟨issued, replies, freed⟩ := reached_world reached
  refine ⟨w, ran, issued, replies.symm, freed, ?_, fun success => ?_⟩
  · rw [issued]
    exact follow_prefix NEU_ERR_IS_BUSY putVerdict [] plan turns
  · rw [issued]
    rw [success] at replies
    exact putReplies_success replies

def monitorNode : NeuRespNodeInfo := ⟨⟨.lit "monitor", by decide⟩, ⟨.lit "Monitor", by decide⟩⟩

def smallRequest : NeuJsonGlobalConfigReq where
  nodes := [⟨.lit "monitor", .lit "Monitor"⟩, ⟨.lit "modbus", .lit "Modbus TCP"⟩]
  groups := []
  tags := [⟨.lit "modbus", .lit "a", []⟩]
  subscriptions := []
  settings := []

def smallTurns : List (Turn RespData) :=
  allSent [.getNode [monitorNode, mqttNode], .error 0 0, .getNode [], .error 0 0, .addTag 0 2203]

theorem put_config_in_order_small :
    ∃ w, putGlobalConfig noCasts smallRequest smallTurns = some w ∧
      w.replies = [⟨.partialContent, 2203⟩] := by
  have planned : putPlan noCasts [monitorNode, mqttNode] [] smallRequest = some
      [.getNode .app, .delNode ⟨.lit "mqtt", by decide⟩, .getNode .driver,
        .addNode ⟨.lit "modbus", by decide⟩ ⟨.lit "Modbus TCP", by decide⟩,
        .addTag ⟨.lit "modbus", by decide⟩ ⟨.lit "a", by decide⟩ 0 []] := rfl
  obtain ⟨w, ran, _, replies, _⟩ := put_config_in_order noCasts [monitorNode, mqttNode] []
    smallRequest _ smallTurns planned
    (List.forall_mem_cons.2 ⟨.inl rfl, List.forall_mem_cons.2 ⟨⟨0, 0, rfl⟩,
      List.forall_mem_cons.2 ⟨.inl rfl, List.forall_mem_cons.2 ⟨⟨0, 0, rfl⟩,
      List.forall_mem_cons.2 ⟨.inl ⟨0, 2203, rfl⟩, List.forall_mem_nil _⟩⟩⟩⟩⟩)
    (List.forall_mem_cons.2 ⟨⟨trivial, rfl⟩, List.forall_mem_cons.2 ⟨⟨trivial, rfl⟩,
      List.forall_mem_cons.2 ⟨⟨trivial, rfl⟩, List.forall_mem_cons.2 ⟨⟨trivial, rfl⟩,
      List.forall_mem_cons.2 ⟨⟨trivial, rfl⟩, List.forall_mem_nil _⟩⟩⟩⟩⟩) rfl
  exact ⟨w, ran, Option.some.inj replies⟩

/-- The first request cannot be sent, and the handler still has the context. An error instead of
the answer to added tags goes unnoticed. A plugin's error -1 has no reply. -/
theorem freed_context_written :
    putGlobalConfig noCasts smallRequest [⟨false, .error 0 0⟩] = none ∧
      (∃ w, putGlobalConfig noCasts smallRequest
        (allSent [.getNode [], .getNode [], .error 0 0, .error 2003 0]) = some w ∧
        w.replies = [putSuccess]) ∧
      putGlobalConfig noCasts smallRequest
        (allSent [.getNode [], .getNode [], .error 0 0, .addTag 0 (-1)]) = none :=
  ⟨rfl, ⟨_, rfl, rfl⟩, rfl⟩

end Cpm
