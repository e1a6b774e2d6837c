import Cpm.Lib.Dialogue
import Cpm.Rest.GlobalConfig

/-! `GET` of the global configuration, from `global_config_handle.c`: what the nodes answer is
collected in one document, one request at a time. -/
namespace Cpm

open Lib Lib.Dialogue

/-- `iter` is the place in the array that is walked over. -/
structure GetContext where
  state : ContextState
  error : Int
  json : Json
  apps : Option (List NeuRespNodeInfo)
  drivers : Option (List NeuRespNodeInfo)
  groups : Option (List NeuRespDriverGroupInfo)
  iter : Option Nat

inductive GetReply where
  | ok (document : Json)
  | error (error : Int)

structure GetWorld where
  context : Option GetContext
  issued : List RestReq
  replies : List GetReply

def utarrayNext {α : Type} (items : List α) : Option Nat → Option Nat
  | none => if items.length = 0 then none else some 0
  | some i => if items.length ≠ i + 1 then some (i + 1) else none

/- The entries of the document. -/

def arrayIn (j : Jansson) (json : Json) (key : String) : Json :=
  if (jsonObjectGet (some json) key).isSome then json
  else (jsonObjectSet j json key (some (.array []))).1

def itemsIn (json : Json) (key : String) : List Json :=
  match jsonObjectGet (some json) key with
  | some (.array items) => items
  | _ => []

def appendIn (j : Jansson) (json : Json) (key : String) (item : Json) : Json :=
  (jsonObjectSet j json key (some (.array (itemsIn json key ++ [item])))).1

section
variable (j : Jansson) (casts : CastOps)

def nodeJson (info : NeuRespNodeInfo) : Json :=
  neuJsonEncodeEntry j casts [("plugin", .str info.plugin.val), ("name", .str info.node.val)]

def getNodesResp (json : Json) (nodes : List NeuRespNodeInfo) : Json :=
  neuJsonEncodeField j casts json
    [("nodes", .object (.array (itemsIn json "nodes" ++ nodes.map (nodeJson j casts))))]

def groupJson (info : NeuRespDriverGroupInfo) : Json :=
  neuJsonEncodeEntry j casts
    [("driver", .str info.driver.val), ("group", .str info.group.val),
      ("tag_count", .int info.tagCount.toNat), ("interval", .int info.interval.toNat)]

def getGroupsResp (json : Json) (groups : List NeuRespDriverGroupInfo) : Json :=
  neuJsonEncodeField j casts json [("groups", .object (.array (groups.map (groupJson j casts))))]

def setNamed (object : Json × Int) (key : String) (text : CStr) : Json × Int :=
  if object.2 ≠ 0 then object
  else
    let set := jsonObjectSet j object.1 key (jsonString j text)
    (set.1, if set.2 ≠ 0 then NEU_ERR_EINTERNAL else 0)

def tagsJson (driver group : CStr) (tags : List NeuDatatag) : Json × Int :=
  setNamed j (setNamed j
    (neuJsonEncodeGetTagsResp j casts (.object []) (tags.map jsonTagOf), 0) "driver" driver)
    "group" group

/-- With no tags there is an array all the same. -/
def getTagsResp (json : Json) (info : Option (CStr × CStr)) (tags : List NeuDatatag) : Json × Int :=
  let json := arrayIn j json "tags"
  match info, tags with
  | some (driver, group), _ :: _ =>
    let entry := tagsJson j casts driver group tags
    (appendIn j json "tags" entry.1, entry.2)
  | _, _ => (json, 0)

/-- A text of `params` that is not JSON, or has no such key, is passed over. -/
def subscribedJson (info : NeuRespSubscribeInfo) : Json :=
  let object := (jsonObjectSet j (.object []) "driver" (jsonString j info.driver.val)).1
  let object := (jsonObjectSet j object "group" (jsonString j info.group.val)).1
  match info.params with
  | none => object
  | some params => (jsonObjectSet j object "params" (jsonObjectGet (j.loads params) "params")).1

def subscriptionsJson (app : CStr) (groups : List NeuRespSubscribeInfo) : Json × Int :=
  setNamed j (neuJsonEncodeField j casts (.object [])
    [("groups", .object (.array (groups.map (subscribedJson j))))], 0) "app" app

def getSubscriptionsResp (json : Json) (info : Option CStr) (groups : List NeuRespSubscribeInfo) :
    Json × Int :=
  let json := arrayIn j json "subscriptions"
  match info, groups with
  | some app, _ :: _ =>
    let entry := subscriptionsJson j casts app groups
    (appendIn j json "subscriptions" entry.1, entry.2)
  | _, _ => (json, 0)

def settingJson (node setting : CStr) : Json × Int :=
  let entry := neuJsonLoadKey j (neuJsonEncodeEntry j casts [("node", .str node)]) "params" setting
  (entry.1, if entry.2 ≠ 0 then NEU_ERR_EINTERNAL else 0)

def getSettingResp (json : Json) (setting : Option (CStr × CStr)) : Json × Int :=
  let json := arrayIn j json "settings"
  match setting with
  | some (node, setting) =>
    let entry := settingJson j casts node setting
    (appendIn j json "settings" entry.1, entry.2)
  | none => (json, 0)

/- `get_context_next`. -/

abbrev GetSwitched := GetContext × List RestReq

def nextGet (ctx : GetContext) (request : RestReq) (sent : Bool) : GetSwitched :=
  if sent then ({ ctx with error := 0 }, [request])
  else ({ ctx with error := NEU_ERR_IS_BUSY, state := .stop }, [request])

def nextResp (ctx : GetContext) (resp : Json × Int) (go : GetContext → Option GetSwitched) :
    Option GetSwitched :=
  if resp.2 ≠ 0 then some ({ ctx with json := resp.1, error := resp.2, state := .stop }, [])
  else go { ctx with json := resp.1, error := 0 }

def advance {α : Type} (items : List α) (request : α → RestReq)
    (fall : GetContext → Option GetSwitched) (sent : Bool) (ctx : GetContext) : Option GetSwitched :=
  let ctx := { ctx with iter := utarrayNext items ctx.iter }
  match ctx.iter.bind fun i => items[i]? with
  | some item => some (nextGet ctx (request item) sent)
  | none => fall ctx

/-- Errors are ignored; another type than the one expected has no result. -/
def settingResp (ctx : GetContext) (data : Option RespData) : Option (Json × Int) :=
  match ctx.iter, data with
  | none, _ => some (getSettingResp j casts ctx.json none)
  | some _, some (.error _ _) => some (ctx.json, 0)
  | some _, some (.getNodeSetting node setting) =>
    some (getSettingResp j casts ctx.json (some (node.val, setting)))
  | _, _ => none

def settingReq (info : NeuRespNodeInfo) : RestReq := .getNodeSetting info.node

def caseDriverSetting (ctx : GetContext) (data : Option RespData) (sent : Bool) :
    Option GetSwitched :=
  (settingResp j casts ctx data).bind fun resp => nextResp ctx resp fun ctx =>
    ctx.drivers.bind fun drivers =>
      advance drivers settingReq (fun ctx => some ({ ctx with state := .stop }, [])) sent ctx

def caseAppSetting (ctx : GetContext) (data : Option RespData) (sent : Bool) : Option GetSwitched :=
  (settingResp j casts ctx data).bind fun resp => nextResp ctx resp fun ctx =>
    ctx.apps.bind fun apps =>
      advance apps settingReq
        (fun ctx => caseDriverSetting j casts { ctx with state := .getDriverSetting } data sent)
        sent ctx

def subscriptionResp (ctx : GetContext) (data : Option RespData) : Option (Json × Int) :=
  match ctx.iter, data with
  | none, _ => some (getSubscriptionsResp j casts ctx.json none [])
  | some i, some (.getSubscribeGroup groups) => do
    let info ← (← ctx.apps)[i]?
    return getSubscriptionsResp j casts ctx.json (some info.node.val) groups
  | _, _ => none

def subscriptionReq (info : NeuRespNodeInfo) : RestReq := .getSubscribeGroup info.node

def caseSubscription (ctx : GetContext) (data : Option RespData) (sent : Bool) :
    Option GetSwitched :=
  (subscriptionResp j casts ctx data).bind fun resp => nextResp ctx resp fun ctx =>
    ctx.apps.bind fun apps =>
      advance apps subscriptionReq
        (fun ctx => caseAppSetting j casts { ctx with state := .getAppSetting } data sent) sent ctx

def tagResp (ctx : GetContext) (data : Option RespData) : Option (Json × Int) :=
  match ctx.iter, data with
  | none, _ => some (getTagsResp j casts ctx.json none [])
  | some _, some (.error _ _) => some (ctx.json, 0)
  | some i, some (.getTag tags) => do
    let info ← (← ctx.groups)[i]?
    return getTagsResp j casts ctx.json (some (info.driver.val, info.group.val)) tags
  | _, _ => none

def tagReq (info : NeuRespDriverGroupInfo) : RestReq := .getTag info.driver info.group

def caseTag (ctx : GetContext) (data : Option RespData) (sent : Bool) : Option GetSwitched :=
  (tagResp j casts ctx data).bind fun resp => nextResp ctx resp fun ctx =>
    ctx.groups.bind fun groups =>
      advance groups tagReq
        (fun ctx => caseSubscription j casts { ctx with state := .getSubscription } data sent) sent ctx

def getSwitch (ctx : GetContext) (data : Option RespData) (sent : Bool) : Option GetSwitched :=
  match ctx.state, data with
  | .start, _ => some (nextGet { ctx with state := .getApp } (.getNode .app) sent)
  | .getApp, some (.getNode nodes) =>
    some (nextGet { ctx with
      json := getNodesResp j casts ctx.json nodes
      apps := some nodes
      state := .getDriver } (.getNode .driver) sent)
  | .getDriver, some (.getNode nodes) =>
    some (nextGet { ctx with
      json := getNodesResp j casts ctx.json nodes
      drivers := some nodes
      state := .getGroup } .getDriverGroup sent)
  | .getGroup, some (.getDriverGroup groups) =>
    caseTag j casts { ctx with
      json := getGroupsResp j casts ctx.json groups
      groups := some groups
      iter := none
      state := .getTag } data sent
  | .getApp, _ | .getDriver, _ | .getGroup, _ => none
  | .getTag, _ => caseTag j casts ctx data sent
  | .getSubscription, _ => caseSubscription j casts ctx data sent
  | .getAppSetting, _ => caseAppSetting j casts ctx data sent
  | .getDriverSetting, _ => caseDriverSetting j casts ctx data sent
  | _, _ => some ({ ctx with error := NEU_ERR_EINTERNAL, state := .stop }, [])

def getContextNext (w : GetWorld) (data : Option RespData) (sent : Bool) : Option GetWorld := do
  let ctx ← w.context
  let (ctx, requests) ← getSwitch j casts ctx data sent
  let issued := w.issued ++ requests
  return if ctx.state = .stop then
      ⟨none, issued, w.replies ++ [if ctx.error ≠ 0 then .error ctx.error else .ok ctx.json]⟩
    else ⟨some ctx, issued, w.replies⟩

def handleGetGlobalConfig (sent : Bool) : Option GetWorld :=
  getContextNext j casts ⟨some ⟨.start, 0, .object [], none, none, none, none⟩, [], []⟩ none sent

def getGlobalConfig (turns : List (Turn RespData)) : Option GetWorld := do
  let w ← handleGetGlobalConfig j casts (nextSent turns)
  converse (fun w answer sent => getContextNext j casts w (some answer) sent)
    (fun w => w.context.isNone) w turns

/- The document of what was answered: each entry comes from one exchange. -/

def nodesOf (past : List (RestReq × RespData)) : List Json := past.flatMap fun exchange =>
  match exchange with
  | (.getNode _, .getNode nodes) => nodes.map (nodeJson j casts)
  | _ => []

def groupsOf (past : List (RestReq × RespData)) : List Json := past.flatMap fun exchange =>
  match exchange with
  | (.getDriverGroup, .getDriverGroup groups) => groups.map (groupJson j casts)
  | _ => []

def tagsOf (past : List (RestReq × RespData)) : List Json := past.flatMap fun exchange =>
  match exchange with
  | (.getTag driver group, .getTag (tag :: tags)) =>
    [(tagsJson j casts driver.val group.val (tag :: tags)).1]
  | _ => []

def subscriptionsOf (past : List (RestReq × RespData)) : List Json := past.flatMap fun exchange =>
  match exchange with
  | (.getSubscribeGroup app, .getSubscribeGroup (group :: groups)) =>
    [(subscriptionsJson j casts app.val (group :: groups)).1]
  | _ => []

def settingsOf (past : List (RestReq × RespData)) : List Json := past.flatMap fun exchange =>
  match exchange with
  | (.getNodeSetting node, .getNodeSetting _ setting) => [(settingJson j casts node.val setting).1]
  | _ => []

def groupsDocument (past : List (RestReq × RespData)) : Json :=
  .object [("nodes", .array (nodesOf j casts past)), ("groups", .array (groupsOf j casts past))]

def tagsDocument (past : List (RestReq × RespData)) : Json :=
  .object [("nodes", .array (nodesOf j casts past)), ("groups", .array (groupsOf j casts past)),
    ("tags", .array (tagsOf j casts past))]

def subscriptionsDocument (past : List (RestReq × RespData)) : Json :=
  .object [("nodes", .array (nodesOf j casts past)), ("groups", .array (groupsOf j casts past)),
    ("tags", .array (tagsOf j casts past)), ("subscriptions", .array (subscriptionsOf j casts past))]

def document (past : List (RestReq × RespData)) : Json :=
  .object [("nodes", .array (nodesOf j casts past)), ("groups", .array (groupsOf j casts past)),
    ("tags", .array (tagsOf j casts past)), ("subscriptions", .array (subscriptionsOf j casts past)),
    ("settings", .array (settingsOf j casts past))]

/-- Each request is answered by its own type; tags and settings may be answered by an error. -/
def GetAnswers (apps drivers : List NeuRespNodeInfo) (groups : List NeuRespDriverGroupInfo) :
    RestReq → RespData → Prop
  | .getNode type, answer => answer = .getNode (if type = .app then apps else drivers)
  | .getDriverGroup, answer => answer = .getDriverGroup groups
  | .getTag _ _, answer =>
    (∃ tags, answer = .getTag tags) ∨ ∃ error behind, answer = .error error behind
  | .getSubscribeGroup _, answer => ∃ groups, answer = .getSubscribeGroup groups
  | .getNodeSetting node, answer => (∃ setting, answer = .getNodeSetting node setting) ∨
      ∃ error behind, answer = .error error behind
  | _, _ => False

/-- The names that an entry has to have are UTF-8, and a setting is the text of an object with
`params`. -/
def GetAllowed : RestReq → RespData → Prop
  | .getTag driver group, .getTag (_ :: _) => j.utf8 driver.val = true ∧ j.utf8 group.val = true
  | .getSubscribeGroup app, .getSubscribeGroup (_ :: _) => j.utf8 app.val = true
  | .getNodeSetting _, .getNodeSetting _ setting =>
    (jsonObjectGet (j.loads setting) "params").isSome = true
  | _, _ => True

def getPlan (apps drivers : List NeuRespNodeInfo) (groups : List NeuRespDriverGroupInfo) :
    List RestReq :=
  .getNode .app :: .getNode .driver :: .getDriverGroup ::
    (groups.map tagReq ++ (apps.map subscriptionReq ++
      (apps.map settingReq ++ drivers.map settingReq)))

def GetHeeds (answers : RestReq → RespData → Prop)
    (further : RespData → Bool → Option GetSwitched → Prop) (ctx : GetContext) (request : RestReq) :
    Prop :=
  ctx.state ≠ .stop ∧ ∀ answer sent, answers request answer →
    further answer sent (getSwitch j casts ctx (some answer) sent)

/-- A call of the switch makes the first request of a plan, and the calls after it the others; at
the end stands the document. -/
def GetPerforms (answers : RestReq → RespData → Prop) :
    List RestReq → List (RestReq × RespData) → Bool → Option GetSwitched → Prop
  | [], past, _, result => ∃ last, result = some (last, []) ∧ last.state = .stop ∧ last.error = 0 ∧
      last.json = document j casts past
  | request :: rest, past, sent, result => ∃ ctx, result = some (ctx, [request]) ∧
      if sent then
        GetHeeds j casts answers
          (fun answer => GetPerforms answers rest (past ++ [(request, answer)])) ctx request
      else ctx.state = .stop ∧ ctx.error = NEU_ERR_IS_BUSY

end

/- Walking over an array. -/

section
variable {j : Jansson} {casts : CastOps} {answers : RestReq → RespData → Prop}

section
variable {α : Type} {items : List α}

def placeAfter : Option Nat → Nat
  | none => 0
  | some i => i + 1

theorem utarrayNext_some {iter : Option Nat} {item : α} (found : items[placeAfter iter]? = some item) :
    utarrayNext items iter = some (placeAfter iter) := by
  obtain ⟨inside, _⟩ := List.getElem?_eq_some_iff.1 found
  cases iter with
  | none =>
    have nonempty : items.length ≠ 0 := by
      change 0 < items.length at inside
      omega
    rw [utarrayNext, if_neg nonempty]
    rfl
  | some i =>
    have more : items.length ≠ i + 1 := by
      change i + 1 < items.length at inside
      omega
    rw [utarrayNext, if_pos more]
    rfl

theorem utarrayNext_none {iter : Option Nat} (ends : placeAfter iter = items.length) :
    utarrayNext items iter = none := by
  cases iter with
  | none =>
    have empty : items.length = 0 := ends.symm
    rw [utarrayNext, if_pos empty]
  | some i =>
    have last : items.length = i + 1 := ends.symm
    rw [utarrayNext, if_neg (not_not.2 last)]

/-- One array of the dialogue. The induction is on what is still to be asked for. -/
theorem advance_performs {good : GetContext → Prop} {doc : List (RestReq × RespData) → Json}
    {inv : List (RestReq × RespData) → Prop} {request : α → RestReq}
    {resp : GetContext → Option RespData → Option (Json × Int)}
    {fall : Option RespData → Bool → GetContext → Option GetSwitched} {later : List RestReq}
    (switches : ∀ ctx data sent, good ctx → getSwitch j casts ctx data sent =
      (resp ctx data).bind fun r => nextResp ctx r (advance items request (fall data sent) sent))
    (running : ∀ ctx, good ctx → ctx.state ≠ .stop)
    (steady : ∀ ctx json iter, good ctx → good { ctx with json, iter, error := 0 })
    (reads : ∀ ctx past i item answer, good ctx → inv past → ctx.iter = some i →
      items[i]? = some item → ctx.json = doc past → answers (request item) answer →
      resp ctx (some answer) = some (doc (past ++ [(request item, answer)]), 0))
    (keeps : ∀ past item answer, inv past → inv (past ++ [(request item, answer)]))
    (falls : ∀ ctx data sent past, good ctx → ctx.iter = none → ctx.json = doc past → inv past →
      GetPerforms j casts answers later past sent (fall data sent ctx))
    {ctx : GetContext} {data : Option RespData} {sent : Bool} {past : List (RestReq × RespData)}
    (here : good ctx) (calm : ctx.error = 0) (shown : ctx.json = doc past) (kept : inv past)
    (inside : placeAfter ctx.iter ≤ items.length) :
    GetPerforms j casts answers ((items.drop (placeAfter ctx.iter)).map request ++ later) past sent
      (advance items request (fall data sent) sent ctx) := by
  obtain ⟨left, same⟩ : ∃ left, items.drop (placeAfter ctx.iter) = left := ⟨_, rfl⟩
  rw [same]
  induction left generalizing ctx data sent past with
  | nil =>
    have ends : placeAfter ctx.iter = items.length :=
      le_antisymm inside (List.drop_eq_nil_iff.1 same)
    have after := steady ctx ctx.json none here
    rw [← calm] at after
    simp only [advance, utarrayNext_none ends, Option.bind_none]
    exact falls _ data sent past after rfl shown kept
  | cons item rest ih =>
    have found : items[placeAfter ctx.iter]? = some item := by
      rw [← List.head?_drop, same, List.head?_cons]
    have further : items.drop (placeAfter ctx.iter + 1) = rest := by
      rw [← List.tail_drop, same, List.tail_cons]
    simp only [advance, utarrayNext_some found, Option.bind_some, found, nextGet]
    have after := steady ctx ctx.json (some (placeAfter ctx.iter)) here
    cases sent with
    | false => exact ⟨_, rfl, rfl, rfl⟩
    | true =>
      refine ⟨_, rfl, running _ after, ?_⟩
      intro answer more answered
      rw [switches _ _ more after,
        reads _ past (placeAfter ctx.iter) item answer after kept rfl found shown answered,
        Option.bind_some, nextResp, if_neg (not_not.2 rfl)]
      apply ih (steady _ _ (some (placeAfter ctx.iter)) after) rfl rfl
        (keeps past item answer kept) _ further
      exact (List.getElem?_eq_some_iff.1 found).1

end

/- What the responses do to the document. -/

theorem neuJsonEncodeField_object (j : Jansson) (casts : CastOps)
    (elements : List (ElemName × NeuJsonValue)) (members : List (String × Json)) :
    ∃ members', neuJsonEncodeField j casts (.object members) elements = .object members' := by
  induction elements generalizing members with
  | nil => exact ⟨members, rfl⟩
  | cons element rest ih =>
    obtain ⟨first, same⟩ : ∃ first, encodeObject j casts (.object members) element = .object first := by
      unfold encodeObject jsonObjectSet
      split
      · exact ⟨_, rfl⟩
      · exact ⟨members, rfl⟩
    obtain ⟨members', built⟩ := ih first
    exact ⟨members', by rw [← built, neuJsonEncodeField, List.foldl_cons, same]; rfl⟩

theorem settingJson_fine {node setting : CStr}
    (params : (jsonObjectGet (j.loads setting) "params").isSome = true) :
    (settingJson j casts node setting).2 = 0 := by
  obtain ⟨value, found⟩ := Option.isSome_iff_exists.1 params
  obtain ⟨members, built⟩ := neuJsonEncodeField_object j casts [("node", .str node)] []
  cases loaded : j.loads setting with
  | none =>
    rw [loaded] at found
    cases found
  | some object =>
    rw [loaded] at found
    simp [settingJson, neuJsonLoadKey, loaded, found, neuJsonEncodeEntry, built]

theorem setNamed_fine {members : List (String × Json)} {key : String} {text : CStr}
    (plain : j.utf8 text = true) :
    setNamed j (.object members, 0) key text = (.object (setMember key (.string text) members), 0) := by
  simp [setNamed, jsonString, plain]

theorem tagsJson_fine (casts : CastOps) {driver group : CStr} (tags : List NeuDatatag)
    (named : j.utf8 driver = true ∧ j.utf8 group = true) :
    (tagsJson j casts driver group tags).2 = 0 := by
  obtain ⟨members, built⟩ := neuJsonEncodeField_object j casts
    [("tags", .object (.array ((tags.map jsonTagOf).map (neuJsonEncodeTag j casts))))] []
  rw [tagsJson, neuJsonEncodeGetTagsResp, built, setNamed_fine named.1, setNamed_fine named.2]

theorem subscriptionsJson_fine (casts : CastOps) {app : CStr} (groups : List NeuRespSubscribeInfo)
    (named : j.utf8 app = true) : (subscriptionsJson j casts app groups).2 = 0 := by
  obtain ⟨members, built⟩ := neuJsonEncodeField_object j casts
    [("groups", .object (.array (groups.map (subscribedJson j))))] []
  rw [subscriptionsJson, built, setNamed_fine named]

section
variable (j casts)

theorem settings_created {past : List (RestReq × RespData)} (fresh : settingsOf j casts past = []) :
    getSettingResp j casts (subscriptionsDocument j casts past) none = (document j casts past, 0) := by
  simp [getSettingResp, arrayIn, subscriptionsDocument, document, jsonObjectGet,
    setMember, fresh, List.lookup_cons]

theorem settings_there (past : List (RestReq × RespData)) :
    getSettingResp j casts (document j casts past) none = (document j casts past, 0) := by
  simp [getSettingResp, arrayIn, document, jsonObjectGet, List.lookup_cons]

theorem settings_answered (past : List (RestReq × RespData)) {node : CharArray NEU_NODE_NAME_LEN}
    {setting : CStr} (params : (jsonObjectGet (j.loads setting) "params").isSome = true) :
    getSettingResp j casts (document j casts past) (some (node.val, setting)) =
      (document j casts (past ++ [(.getNodeSetting node, .getNodeSetting node setting)]), 0) := by
  have fine : (settingJson j casts node.val setting).2 = 0 := settingJson_fine params
  simp [getSettingResp, arrayIn, appendIn, itemsIn, document, jsonObjectGet,
    setMember, List.lookup_cons, fine, nodesOf, groupsOf, tagsOf, subscriptionsOf, settingsOf]

theorem subscriptions_created {past : List (RestReq × RespData)}
    (fresh : subscriptionsOf j casts past = []) :
    getSubscriptionsResp j casts (tagsDocument j casts past) none [] =
      (subscriptionsDocument j casts past, 0) := by
  simp [getSubscriptionsResp, arrayIn, tagsDocument, subscriptionsDocument, jsonObjectGet,
    setMember, fresh, List.lookup_cons]

theorem subscriptions_answered (past : List (RestReq × RespData))
    {app : CharArray NEU_NODE_NAME_LEN} {groups : List NeuRespSubscribeInfo}
    (named : GetAllowed j (.getSubscribeGroup app) (.getSubscribeGroup groups)) :
    getSubscriptionsResp j casts (subscriptionsDocument j casts past) (some app.val) groups =
      (subscriptionsDocument j casts
        (past ++ [(.getSubscribeGroup app, .getSubscribeGroup groups)]), 0) := by
  cases groups with
  | nil =>
    simp [getSubscriptionsResp, arrayIn, subscriptionsDocument, jsonObjectGet, List.lookup_cons,
      nodesOf, groupsOf, tagsOf, subscriptionsOf]
  | cons group groups =>
    have fine := subscriptionsJson_fine casts (group :: groups) named
    simp [getSubscriptionsResp, arrayIn, appendIn, itemsIn, subscriptionsDocument, jsonObjectGet,
      setMember, List.lookup_cons, fine, nodesOf, groupsOf, tagsOf, subscriptionsOf]

theorem tags_created {past : List (RestReq × RespData)} (fresh : tagsOf j casts past = []) :
    getTagsResp j casts (groupsDocument j casts past) none [] = (tagsDocument j casts past, 0) := by
  simp [getTagsResp, arrayIn, groupsDocument, tagsDocument, jsonObjectGet, setMember,
    fresh, List.lookup_cons]

theorem tags_answered (past : List (RestReq × RespData)) {driver : CharArray NEU_NODE_NAME_LEN}
    {group : CharArray NEU_GROUP_NAME_LEN} {tags : List NeuDatatag}
    (named : GetAllowed j (.getTag driver group) (.getTag tags)) :
    getTagsResp j casts (tagsDocument j casts past) (some (driver.val, group.val)) tags =
      (tagsDocument j casts (past ++ [(.getTag driver group, .getTag tags)]), 0) := by
  cases tags with
  | nil =>
    simp [getTagsResp, arrayIn, tagsDocument, jsonObjectGet, List.lookup_cons, nodesOf, groupsOf,
      tagsOf]
  | cons tag tags =>
    have fine := tagsJson_fine casts (tag :: tags) named
    simp [getTagsResp, arrayIn, appendIn, itemsIn, tagsDocument, jsonObjectGet,
      setMember, List.lookup_cons, fine, nodesOf, groupsOf, tagsOf]

end

/- The states, from the last one back. -/

structure GetAt (apps drivers : List NeuRespNodeInfo) (groups : List NeuRespDriverGroupInfo)
    (state : ContextState) (ctx : GetContext) : Prop where
  here : ctx.state = state
  calm : ctx.error = 0
  apps : ctx.apps = some apps
  drivers : ctx.drivers = some drivers
  groups : ctx.groups = some groups

def GetGood (j : Jansson) (apps drivers : List NeuRespNodeInfo)
    (groups : List NeuRespDriverGroupInfo) (request : RestReq) (answer : RespData) : Prop :=
  GetAnswers apps drivers groups request answer ∧ GetAllowed j request answer

theorem nextResp_known {α : Type} {ctx : GetContext} {resp : Option (Json × Int)}
    {field : GetContext → Option α} {items : α} {go : α → GetContext → Option GetSwitched}
    (known : ∀ json, field { ctx with json, error := 0 } = some items) :
    (resp.bind fun r => nextResp ctx r fun ctx => (field ctx).bind fun items => go items ctx) =
      resp.bind fun r => nextResp ctx r (go items) := by
  congr 1
  funext r
  unfold nextResp
  split
  · rfl
  · simp only [known r.1, Option.bind_some]

section
variable {apps drivers : List NeuRespNodeInfo} {groups : List NeuRespDriverGroupInfo}
  {state : ContextState} {ctx : GetContext} {data : Option RespData} {sent : Bool}
  {past : List (RestReq × RespData)}

theorem GetAt.running (active : state ≠ .stop) (here : GetAt apps drivers groups state ctx) :
    ctx.state ≠ .stop := by
  rw [here.here]
  exact active

theorem GetAt.steady (here : GetAt apps drivers groups state ctx) (json : Json) (iter : Option Nat) :
    GetAt apps drivers groups state { ctx with json, iter, error := 0 } :=
  ⟨here.here, rfl, here.apps, here.drivers, here.groups⟩

theorem GetAt.enter (here : GetAt apps drivers groups state ctx) (state' : ContextState) :
    GetAt apps drivers groups state' { ctx with state := state' } :=
  ⟨rfl, here.calm, here.apps, here.drivers, here.groups⟩

/-- A state is entered without a place in its array, and its response then makes the array of the
document. -/
theorem getStage_performs {α : Type} {items : List α}
    (doc : List (RestReq × RespData) → Json) (inv : List (RestReq × RespData) → Prop)
    {request : α → RestReq} {resp : GetContext → Option RespData → Option (Json × Int)}
    {fall : Option RespData → Bool → GetContext → Option GetSwitched} {later : List RestReq}
    (active : state ≠ .stop)
    (switches : ∀ ctx data sent, GetAt apps drivers groups state ctx →
      getSwitch j casts ctx data sent =
        (resp ctx data).bind fun r => nextResp ctx r (advance items request (fall data sent) sent))
    (enters : resp ctx data = some (doc past, 0))
    (reads : ∀ ctx past i item answer, GetAt apps drivers groups state ctx → inv past →
      ctx.iter = some i → items[i]? = some item → ctx.json = doc past →
      GetGood j apps drivers groups (request item) answer →
      resp ctx (some answer) = some (doc (past ++ [(request item, answer)]), 0))
    (keeps : ∀ past item answer, inv past → inv (past ++ [(request item, answer)]))
    (falls : ∀ ctx data sent past, GetAt apps drivers groups state ctx → ctx.iter = none →
      ctx.json = doc past → inv past →
      GetPerforms j casts (GetGood j apps drivers groups) later past sent (fall data sent ctx))
    (here : GetAt apps drivers groups state ctx) (outside : ctx.iter = none) (kept : inv past) :
    GetPerforms j casts (GetGood j apps drivers groups) (items.map request ++ later) past sent
      (getSwitch j casts ctx data sent) := by
  rw [switches ctx data sent here, enters, Option.bind_some, nextResp, if_neg (not_not.2 rfl)]
  have start : placeAfter ctx.iter = 0 := by
    rw [outside]
    rfl
  have performs : GetPerforms j casts (GetGood j apps drivers groups)
      ((items.drop (placeAfter ctx.iter)).map request ++ later) past sent
      (advance items request (fall data sent) sent { ctx with json := doc past, error := 0 }) := by
    apply advance_performs switches (fun ctx => GetAt.running active)
      (fun ctx json iter here => here.steady json iter) reads keeps falls
      (here.steady (doc past) ctx.iter) rfl rfl kept
    change placeAfter ctx.iter ≤ items.length
    omega
  rw [start, List.drop_zero] at performs
  exact performs

theorem settings_read {item : NeuRespNodeInfo} {answer : RespData} {i : Nat}
    (inside : ctx.iter = some i) (shown : ctx.json = document j casts past)
    (good : GetGood j apps drivers groups (settingReq item) answer) :
    settingResp j casts ctx (some answer) =
      some (document j casts (past ++ [(settingReq item, answer)]), 0) := by
  obtain ⟨⟨setting, rfl⟩ | ⟨error, behind, rfl⟩, allowed⟩ := good
  · simp only [settingResp, inside, shown, settings_answered j casts past allowed, settingReq]
  · simp only [settingResp, inside, shown]
    simp [document, settingReq, nodesOf, groupsOf, tagsOf, subscriptionsOf, settingsOf]

theorem caseDriverSetting_performs (here : GetAt apps drivers groups .getDriverSetting ctx)
    (outside : ctx.iter = none) (shown : ctx.json = document j casts past) :
    GetPerforms j casts (GetGood j apps drivers groups) (drivers.map settingReq) past sent
      (caseDriverSetting j casts ctx data sent) := by
  have switches (ctx : GetContext) (data : Option RespData) (sent : Bool)
      (here : GetAt apps drivers groups .getDriverSetting ctx) :
      getSwitch j casts ctx data sent = caseDriverSetting j casts ctx data sent := by
    simp only [getSwitch, here.here]
  have unfolds (ctx : GetContext) (data : Option RespData) (sent : Bool)
      (here : GetAt apps drivers groups .getDriverSetting ctx) :
      getSwitch j casts ctx data sent =
        (settingResp j casts ctx data).bind fun r => nextResp ctx r (advance drivers settingReq
          (fun ctx => some ({ ctx with state := .stop }, [])) sent) := by
    rw [switches ctx data sent here]
    exact nextResp_known fun json => here.drivers
  rw [← switches ctx data sent here, ← List.append_nil (drivers.map settingReq)]
  apply getStage_performs (document j casts) (fun _ => True) (by decide) unfolds _ _ _ _ here outside
    trivial
  · simp only [settingResp, outside, shown, settings_there]
  · intro ctx past i item answer here _ inside found shown good
    exact settings_read inside shown good
  · exact fun past item answer _ => trivial
  · intro ctx data sent past here outside shown _
    exact ⟨_, rfl, rfl, here.calm, shown⟩

theorem caseAppSetting_performs {later : List RestReq}
    (here : GetAt apps drivers groups .getAppSetting ctx) (outside : ctx.iter = none)
    (shown : ctx.json = subscriptionsDocument j casts past) (fresh : settingsOf j casts past = [])
    (after : ∀ ctx data sent past, GetAt apps drivers groups .getDriverSetting ctx →
      ctx.iter = none → ctx.json = document j casts past →
      GetPerforms j casts (GetGood j apps drivers groups) later past sent
        (caseDriverSetting j casts ctx data sent)) :
    GetPerforms j casts (GetGood j apps drivers groups) (apps.map settingReq ++ later) past sent
      (caseAppSetting j casts ctx data sent) := by
  have switches (ctx : GetContext) (data : Option RespData) (sent : Bool)
      (here : GetAt apps drivers groups .getAppSetting ctx) :
      getSwitch j casts ctx data sent = caseAppSetting j casts ctx data sent := by
    simp only [getSwitch, here.here]
  have unfolds (ctx : GetContext) (data : Option RespData) (sent : Bool)
      (here : GetAt apps drivers groups .getAppSetting ctx) :
      getSwitch j casts ctx data sent =
        (settingResp j casts ctx data).bind fun r => nextResp ctx r (advance apps settingReq
          (fun ctx => caseDriverSetting j casts { ctx with state := .getDriverSetting } data sent)
          sent) := by
    rw [switches ctx data sent here]
    exact nextResp_known fun json => here.apps
  rw [← switches ctx data sent here]
  apply getStage_performs (document j casts) (fun _ => True) (by decide) unfolds _ _ _ _ here outside
    trivial
  · simp only [settingResp, outside, shown, settings_created j casts fresh]
  · intro ctx past i item answer here _ inside found shown good
    exact settings_read inside shown good
  · exact fun past item answer _ => trivial
  · intro ctx data sent past here outside shown _
    exact after _ data sent past (here.enter .getDriverSetting) outside shown

theorem caseSubscription_performs {later : List RestReq}
    (here : GetAt apps drivers groups .getSubscription ctx) (outside : ctx.iter = none)
    (shown : ctx.json = tagsDocument j casts past) (fresh : subscriptionsOf j casts past = [])
    (further : settingsOf j casts past = [])
    (after : ∀ ctx data sent past, GetAt apps drivers groups .getAppSetting ctx →
      ctx.iter = none → ctx.json = subscriptionsDocument j casts past → settingsOf j casts past = [] →
      GetPerforms j casts (GetGood j apps drivers groups) later past sent
        (caseAppSetting j casts ctx data sent)) :
    GetPerforms j casts (GetGood j apps drivers groups) (apps.map subscriptionReq ++ later) past sent
      (caseSubscription j casts ctx data sent) := by
  have switches (ctx : GetContext) (data : Option RespData) (sent : Bool)
      (here : GetAt apps drivers groups .getSubscription ctx) :
      getSwitch j casts ctx data sent = caseSubscription j casts ctx data sent := by
    simp only [getSwitch, here.here]
  have unfolds (ctx : GetContext) (data : Option RespData) (sent : Bool)
      (here : GetAt apps drivers groups .getSubscription ctx) :
      getSwitch j casts ctx data sent =
        (subscriptionResp j casts ctx data).bind fun r => nextResp ctx r (advance apps subscriptionReq
          (fun ctx => caseAppSetting j casts { ctx with state := .getAppSetting } data sent) sent) := by
    rw [switches ctx data sent here]
    exact nextResp_known fun json => here.apps
  rw [← switches ctx data sent here]
  apply getStage_performs (subscriptionsDocument j casts) (fun past => settingsOf j casts past = [])
    (by decide) unfolds _ _ _ _ here outside further
  · simp only [subscriptionResp, outside, shown, subscriptions_created j casts fresh]
  · intro ctx past i item answer here _ inside found shown good
    obtain ⟨⟨groups, rfl⟩, allowed⟩ := good
    have answered := subscriptions_answered j casts past allowed
    simp [subscriptionResp, inside, shown, here.apps, found, answered, subscriptionReq]
  · intro past item answer further
    simp only [settingsOf, List.flatMap_append, List.append_eq_nil_iff]
    exact ⟨further, rfl⟩
  · intro ctx data sent past here outside shown further
    exact after _ data sent past (here.enter .getAppSetting) outside shown further

theorem caseTag_performs {later : List RestReq} (here : GetAt apps drivers groups .getTag ctx)
    (outside : ctx.iter = none) (shown : ctx.json = groupsDocument j casts past)
    (fresh : tagsOf j casts past = [])
    (further : subscriptionsOf j casts past = [] ∧ settingsOf j casts past = [])
    (after : ∀ ctx data sent past, GetAt apps drivers groups .getSubscription ctx →
      ctx.iter = none → ctx.json = tagsDocument j casts past → subscriptionsOf j casts past = [] →
      settingsOf j casts past = [] →
      GetPerforms j casts (GetGood j apps drivers groups) later past sent
        (caseSubscription j casts ctx data sent)) :
    GetPerforms j casts (GetGood j apps drivers groups) (groups.map tagReq ++ later) past sent
      (caseTag j casts ctx data sent) := by
  have switches (ctx : GetContext) (data : Option RespData) (sent : Bool)
      (here : GetAt apps drivers groups .getTag ctx) :
      getSwitch j casts ctx data sent = caseTag j casts ctx data sent := by
    simp only [getSwitch, here.here]
  have unfolds (ctx : GetContext) (data : Option RespData) (sent : Bool)
      (here : GetAt apps drivers groups .getTag ctx) :
      getSwitch j casts ctx data sent =
        (tagResp j casts ctx data).bind fun r => nextResp ctx r (advance groups tagReq
          (fun ctx => caseSubscription j casts { ctx with state := .getSubscription } data sent)
          sent) := by
    rw [switches ctx data sent here]
    exact nextResp_known fun json => here.groups
  rw [← switches ctx data sent here]
  apply getStage_performs (tagsDocument j casts)
    (fun past => subscriptionsOf j casts past = [] ∧ settingsOf j casts past = [])
    (by decide) unfolds _ _ _ _ here outside further
  · simp only [tagResp, outside, shown, tags_created j casts fresh]
  · intro ctx past i item answer here _ inside found shown good
    obtain ⟨⟨tags, rfl⟩ | ⟨error, behind, rfl⟩, allowed⟩ := good
    · have answered := tags_answered j casts past allowed
      simp [tagResp, inside, shown, here.groups, found, answered, tagReq]
    · simp only [tagResp, inside, shown]
      simp [tagsDocument, tagReq, nodesOf, groupsOf, tagsOf]
  · intro past item answer further
    simp only [subscriptionsOf, settingsOf, List.flatMap_append, List.append_eq_nil_iff]
    exact ⟨⟨further.1, rfl⟩, further.2, rfl⟩
  · intro ctx data sent past here outside shown further
    exact after _ data sent past (here.enter .getSubscription) outside shown further.1 further.2

theorem entries_performed (here : GetAt apps drivers groups .getTag ctx) (outside : ctx.iter = none)
    (shown : ctx.json = groupsDocument j casts past) (fresh : tagsOf j casts past = [])
    (further : subscriptionsOf j casts past = [] ∧ settingsOf j casts past = []) :
    GetPerforms j casts (GetGood j apps drivers groups)
      (groups.map tagReq ++ (apps.map subscriptionReq ++
        (apps.map settingReq ++ drivers.map settingReq))) past sent (caseTag j casts ctx data sent) := by
  apply caseTag_performs here outside shown fresh further
  intro ctx data sent past here outside shown fresh further
  apply caseSubscription_performs here outside shown fresh further
  intro ctx data sent past here outside shown fresh
  apply caseAppSetting_performs here outside shown fresh
  intro ctx data sent past here outside shown
  exact caseDriverSetting_performs here outside shown

end

end

section
variable (j : Jansson) (casts : CastOps) (apps drivers : List NeuRespNodeInfo)
  (groups : List NeuRespDriverGroupInfo)

theorem first_documents (past : List (RestReq × RespData))
    (first : past = [(.getNode .app, .getNode apps), (.getNode .driver, .getNode drivers),
      (.getDriverGroup, .getDriverGroup groups)]) :
    getGroupsResp j casts (getNodesResp j casts (getNodesResp j casts (.object []) apps) drivers)
      groups = groupsDocument j casts past := by
  simp [first, getGroupsResp, getNodesResp, neuJsonEncodeField, encodeObject, elementJson,
    setMember, itemsIn, jsonObjectGet, groupsDocument, nodesOf, groupsOf]

def entriesPlan : List RestReq :=
  groups.map tagReq ++ (apps.map subscriptionReq ++
    (apps.map settingReq ++ drivers.map settingReq))

theorem getGroup_heeded :
    GetHeeds j casts (GetGood j apps drivers groups)
      (fun answer => GetPerforms j casts (GetGood j apps drivers groups)
        (entriesPlan apps drivers groups) [(.getNode .app, .getNode apps),
          (.getNode .driver, .getNode drivers), (.getDriverGroup, answer)])
      ⟨.getGroup, 0, getNodesResp j casts (getNodesResp j casts (.object []) apps) drivers, some apps,
        some drivers, none, none⟩ .getDriverGroup := by
  constructor
  · exact ContextState.noConfusion
  · intro answer sent good
    have given : answer = .getDriverGroup groups := good.1
    subst given
    apply entries_performed ⟨rfl, rfl, rfl, rfl, rfl⟩ rfl _ rfl ⟨rfl, rfl⟩
    exact first_documents j casts apps drivers groups _ rfl

theorem getDriver_asks :
    GetHeeds j casts (GetGood j apps drivers groups)
      (fun answer => GetPerforms j casts (GetGood j apps drivers groups)
        (.getDriverGroup :: entriesPlan apps drivers groups)
        [(.getNode .app, .getNode apps), (.getNode .driver, answer)])
      ⟨.getDriver, 0, getNodesResp j casts (.object []) apps, some apps, none, none, none⟩
      (.getNode .driver) := by
  constructor
  · exact ContextState.noConfusion
  · intro answer sent good
    have given : answer = .getNode drivers := good.1
    subst given
    cases sent with
    | false => exact ⟨_, rfl, rfl, rfl⟩
    | true => exact ⟨_, rfl, getGroup_heeded j casts apps drivers groups⟩

theorem getApp_asks :
    GetHeeds j casts (GetGood j apps drivers groups)
      (fun answer => GetPerforms j casts (GetGood j apps drivers groups)
        (.getNode .driver :: .getDriverGroup :: entriesPlan apps drivers groups)
        [(.getNode .app, answer)])
      ⟨.getApp, 0, .object [], none, none, none, none⟩ (.getNode .app) := by
  constructor
  · exact ContextState.noConfusion
  · intro answer sent good
    have given : answer = .getNode apps := good.1
    subst given
    cases sent with
    | false => exact ⟨_, rfl, rfl, rfl⟩
    | true => exact ⟨_, rfl, getDriver_asks j casts apps drivers groups⟩

/- Whole runs. -/

variable (answers : RestReq → RespData → Prop)

def GetAwaits (w : GetWorld) (past : List (RestReq × RespData)) (request : RestReq)
    (rest : List RestReq) : Prop :=
  ∃ ctx, w = ⟨some ctx, past.map Prod.fst ++ [request], []⟩ ∧
    GetHeeds j casts answers
      (fun answer => GetPerforms j casts answers rest (past ++ [(request, answer)])) ctx request

end

def GetStopped (w : GetWorld) (past : List (RestReq × RespData)) (request : RestReq) (error : Int) :
    Prop :=
  w = ⟨none, past.map Prod.fst ++ [request], [.error error]⟩

def GetFinished (j : Jansson) (casts : CastOps) (w : GetWorld) (past : List (RestReq × RespData)) :
    Prop :=
  w = ⟨none, past.map Prod.fst, [.ok (document j casts past)]⟩

section
variable {j : Jansson} {casts : CastOps}

theorem getContextNext_stops {w : GetWorld} {ctx last : GetContext} {data : Option RespData}
    {sent : Bool} {requests : List RestReq} (opened : w.context = some ctx)
    (switched : getSwitch j casts ctx data sent = some (last, requests)) (ends : last.state = .stop) :
    getContextNext j casts w data sent = some ⟨none, w.issued ++ requests,
      w.replies ++ [if last.error ≠ 0 then .error last.error else .ok last.json]⟩ := by
  simp [getContextNext, opened, switched, ends]

theorem getContextNext_goesOn {w : GetWorld} {ctx further : GetContext} {data : Option RespData}
    {sent : Bool} {requests : List RestReq} (opened : w.context = some ctx)
    (switched : getSwitch j casts ctx data sent = some (further, requests))
    (running : further.state ≠ .stop) :
    getContextNext j casts w data sent = some ⟨some further, w.issued ++ requests, w.replies⟩ := by
  simp [getContextNext, opened, switched, running]

/-- No response ends the dialogue: none of those that the results are about reports an error. -/
def getVerdict (_ : RestReq) (_ : RespData) : Option Int := none

theorem get_keepsPlan (j : Jansson) (casts : CastOps) (answers : RestReq → RespData → Prop) :
    KeepsPlan (fun w answer sent => getContextNext j casts w (some answer) sent)
      (fun w => w.context.isNone) answers NEU_ERR_IS_BUSY getVerdict (GetAwaits j casts answers)
      GetStopped (GetFinished j casts) where
  awaiting := by
    rintro w past request rest ⟨ctx, rfl, _⟩
    rfl
  stopped := by
    rintro w past request error rfl
    rfl
  finished := by
    rintro w past rfl
    rfl
  fails := by
    intro w past request rest answer error _ _ outcome
    cases outcome
  last := by
    rintro w past request answer ⟨ctx, rfl, heeds⟩ answered _ sent
    obtain ⟨last, switched, ends, calm, shown⟩ := heeds.2 answer sent answered
    refine ⟨_, getContextNext_stops rfl switched ends, ?_⟩
    simp [GetFinished, calm, shown]
  goesOn := by
    rintro w past request following rest answer ⟨ctx, rfl, heeds⟩ answered _
    obtain ⟨further, switched, further_heeds⟩ := heeds.2 answer true answered
    refine ⟨_, getContextNext_goesOn rfl switched further_heeds.1, further, ?_, further_heeds⟩
    simp
  busy := by
    rintro w past request following rest answer ⟨ctx, rfl, heeds⟩ answered _
    obtain ⟨last, switched, ends, error⟩ := heeds.2 answer false answered
    refine ⟨_, getContextNext_stops rfl switched ends, ?_⟩
    simp [GetStopped, error, NEU_ERR_IS_BUSY]

theorem getGet_awaits (j : Jansson) (casts : CastOps) (apps drivers : List NeuRespNodeInfo)
    (groups : List NeuRespDriverGroupInfo) :
    ∃ w, handleGetGlobalConfig j casts true = some w ∧
      GetAwaits j casts (GetGood j apps drivers groups) w [] (.getNode .app)
        (.getNode .driver :: .getDriverGroup :: entriesPlan apps drivers groups) :=
  ⟨_, rfl, _, rfl, getApp_asks j casts apps drivers groups⟩

theorem getGlobalConfig_finished (casts : CastOps) {apps drivers : List NeuRespNodeInfo}
    {groups : List NeuRespDriverGroupInfo} {answers : List RespData}
    (good : List.Forall₂ (GetGood j apps drivers groups) (getPlan apps drivers groups) answers) :
    ∃ w, getGlobalConfig j casts (allSent answers) = some w ∧
      GetFinished j casts w ((getPlan apps drivers groups).zip answers) := by
  have long : (getPlan apps drivers groups).length = answers.length := good.length_eq
  have answered : Answered (GetGood j apps drivers groups) (getPlan apps drivers groups)
      (allSent answers) := answered_allSent good
  have first : nextSent (allSent answers) = true := nextSent_allSent answers
  obtain ⟨start, handled, awaits⟩ := getGet_awaits j casts apps drivers groups
  obtain ⟨w, ran, reached⟩ :=
    (get_keepsPlan j casts (GetGood j apps drivers groups)).run awaits first answered
  have ends : follow NEU_ERR_IS_BUSY getVerdict [] (getPlan apps drivers groups)
      (allSent answers) = .finished ([] ++ (getPlan apps drivers groups).zip answers) :=
    follow_allSent (fun _ _ => rfl) long
  change Reached _ _ _ w (follow NEU_ERR_IS_BUSY getVerdict [] (getPlan apps drivers groups)
    (allSent answers)) at reached
  rw [ends] at reached
  refine ⟨w, ?_, reached⟩
  rw [getGlobalConfig, first, handled]
  exact ran

end

/-- All nodes and groups, and an entry for each answer that has one, in the order asked for. -/
theorem get_config_document (j : Jansson) (casts : CastOps) (apps drivers : List NeuRespNodeInfo)
    (groups : List NeuRespDriverGroupInfo) (answers : List RespData)
    (answered : List.Forall₂ (GetAnswers apps drivers groups) (getPlan apps drivers groups) answers)
    (allowed : List.Forall₂ (GetAllowed j) (getPlan apps drivers groups) answers) :
    ∃ w, getGlobalConfig j casts (allSent answers) = some w ∧
      w.issued = getPlan apps drivers groups ∧
      w.replies = [.ok (document j casts ((getPlan apps drivers groups).zip answers))] ∧
      w.context = none := by
  have good : List.Forall₂ (GetGood j apps drivers groups) (getPlan apps drivers groups) answers := by
    apply List.forall₂_iff_zip.2
    constructor
    · exact answered.length_eq
    · intro request answer inside
      exact ⟨(List.forall₂_iff_zip.1 answered).2 inside, (List.forall₂_iff_zip.1 allowed).2 inside⟩
  obtain ⟨w, ran, finished⟩ := getGlobalConfig_finished casts good
  have world : w = _ := finished
  subst world
  refine ⟨_, ran, ?_, rfl, rfl⟩
  exact List.map_fst_zip answered.length_eq.le

def paramsText : CStr := .lit "\x7b\"params\":1\x7d"

def smallJansson : Jansson where
  utf8 text := text.chars.all fun c => c.toNat < 128
  loads text := if text = paramsText then some (.object [("params", .integer 1)]) else
    if text = .lit "\x7b\x7d" then some (.object []) else none
  dumps
    | .object [("params", .integer 1)] => some paramsText
    | _ => none

def modbusInfo : NeuRespNodeInfo := ⟨⟨.lit "modbus", by decide⟩, ⟨.lit "Modbus TCP", by decide⟩⟩

def modbusGroup (name : CharArray NEU_GROUP_NAME_LEN) : NeuRespDriverGroupInfo :=
  ⟨modbusInfo.node, name, 1, 1000⟩

def modbusTag : NeuDatatag :=
  ⟨.lit "t", .lit "1!400001", NEU_ATTRIBUTE_READ, .int16, 0, 0, .empty, Block.zero, none⟩

theorem get_config_document_small :
    ∃ w, getGlobalConfig smallJansson noCasts (allSent
        [.getNode [mqttNode], .getNode [modbusInfo],
          .getDriverGroup [modbusGroup ⟨.lit "a", by decide⟩, modbusGroup ⟨.lit "b", by decide⟩],
          .getTag [modbusTag], .error 2014 0, .getSubscribeGroup [],
          .getNodeSetting mqttNode.node paramsText, .error 2005 0]) = some w ∧
      w.issued.length = 8 := by
  obtain ⟨w, ran, issued, _⟩ := get_config_document smallJansson noCasts [mqttNode] [modbusInfo]
    [modbusGroup ⟨.lit "a", by decide⟩, modbusGroup ⟨.lit "b", by decide⟩]
    [.getNode [mqttNode], .getNode [modbusInfo],
      .getDriverGroup [modbusGroup ⟨.lit "a", by decide⟩, modbusGroup ⟨.lit "b", by decide⟩],
      .getTag [modbusTag], .error 2014 0, .getSubscribeGroup [],
      .getNodeSetting mqttNode.node paramsText, .error 2005 0]
    (.cons rfl (.cons rfl (.cons rfl (.cons (.inl ⟨_, rfl⟩) (.cons (.inr ⟨_, _, rfl⟩)
      (.cons ⟨_, rfl⟩ (.cons (.inl ⟨_, rfl⟩) (.cons (.inr ⟨_, _, rfl⟩) .nil))))))))
    (.cons trivial (.cons trivial (.cons trivial (.cons ⟨rfl, rfl⟩ (.cons trivial
      (.cons trivial (.cons rfl (.cons trivial .nil))))))))
  refine ⟨w, ran, ?_⟩
  rw [issued]
  rfl

/-- A setting without `params` is answered by an error instead of the document. -/
theorem setting_without_params :
    List.Forall₂ (GetAnswers [mqttNode] [] []) (getPlan [mqttNode] [] [])
        [.getNode [mqttNode], .getNode [], .getDriverGroup [], .getSubscribeGroup [],
          .getNodeSetting mqttNode.node (.lit "\x7b\x7d")] ∧
      ∃ w, getGlobalConfig smallJansson noCasts (allSent
          [.getNode [mqttNode], .getNode [], .getDriverGroup [], .getSubscribeGroup [],
            .getNodeSetting mqttNode.node (.lit "\x7b\x7d")]) = some w ∧
        w.replies = [.error NEU_ERR_EINTERNAL] := by
  constructor
  · exact .cons rfl (.cons rfl (.cons rfl (.cons ⟨_, rfl⟩ (.cons (.inl ⟨_, rfl⟩) .nil))))
  · exact ⟨_, rfl, rfl⟩

end Cpm
