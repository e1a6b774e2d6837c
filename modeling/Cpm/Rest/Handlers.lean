import Cpm.Base.Elements
import Cpm.Core.ManagerLoop
import Cpm.Core.PluginManager
import Cpm.Rest.GlobalConfig
import Cpm.Rest.User
import Cpm.Utils.Http
import Cpm.Utils.Jwt

/-! The handlers behind the URLs of the dashboard, from the files `*_handle.c`: what each of them
answers at once and what it sends to the manager. A result `none` is a failed assertion, or a text
that is too long for its buffer, or none at all. -/
namespace Cpm

open Lib

def NEU_ERR_PARAM_IS_WRONG : Int := 1003
def NEU_ERR_BODY_IS_WRONG : Int := 1002
def NEU_ERR_NEED_TOKEN : Int := 1004
def NEU_ERR_DECODE_TOKEN : Int := 1005
def NEU_ERR_EXPIRED_TOKEN : Int := 1006
def NEU_ERR_VALIDATE_TOKEN : Int := 1007
def NEU_ERR_INVALID_PASSWORD_LEN : Int := 1012
def NEU_ERR_INVALID_PASSWORD : Int := 1018
def NEU_ERR_NODE_NAME_TOO_LONG : Int := 2010
def NEU_ERR_NODE_NAME_EMPTY : Int := 2015

/-- A request as the server hands it over. The body is the document that jansson reads, if there is
one. -/
structure HttpRequest where
  url : CStr
  authorization : Option CStr
  body : Option Json

inductive JwtValidation where
  | success
  | expired
  | failed
  deriving DecidableEq, Repr

/-- What the libraries return, and the keys that are loaded. -/
structure RestWorld (Token : Type) where
  disableJwt : Bool
  libjwt : Libjwt Token
  parse : CStr → Token
  jwtValidNew : Bool
  jwtValidate : Jwt → JwtValidation
  certs : List DirEntry
  keys : JwtState
  neuJwtNew : Option CStr
  evp : EvpDigests
  casts : CastOps
  lonePrefix : Bool
  errno : Int
  sendFails : Bool
  zlogLevelSwitch : CStr → Int

/-- What a handler sends. The manager stops at the types after the first two. -/
inductive RestMsg where
  | body (body : ReqrespBody)
  | nodeCtl (node : CStr) (ctl : Int)
  | updateNode (node newName : CStr)
  | delNode (node : CStr)
  | addPlugin (library : CStr)
  | delPlugin (plugin : CStr)
  | getNodeState (node : CStr)
  | updateLogLevel (node : CStr)

structure Reaction where
  responses : List NngHttpStatus
  sent : Option RestMsg

def badRequest : Reaction := ⟨[.badRequest], none⟩

def errorResponse (code : Int) : Option Reaction :=
  (neuHttpResponse code).map fun status => ⟨[status], none⟩

def bearer : CStr := .lit "Bearar "

section
variable {Token : Type} (w : RestWorld Token)

def jwtCode : Option Jwt → Int
  | none => NEU_ERR_DECODE_TOKEN
  | some jwt =>
    if w.jwtValidNew then
      match w.jwtValidate jwt with
      | .success => NEU_ERR_SUCCESS
      | .expired => NEU_ERR_EXPIRED_TOKEN
      | .failed => NEU_ERR_VALIDATE_TOKEN
    else NEU_ERR_EINTERNAL

def neuJwtValidate (bToken : Option CStr) : Option Int :=
  match bToken with
  | none => some NEU_ERR_NEED_TOKEN
  | some text =>
    if text.strlen ≤ bearer.strlen then some NEU_ERR_NEED_TOKEN
    else
      (neuJwtDecode w.libjwt w.certs w.keys (w.parse (text.drop bearer.strlen))).map fun decoded =>
        jwtCode w decoded.2.jwt

def validateJwt (req : HttpRequest) (next : Option Reaction) : Option Reaction :=
  if w.disableJwt then next
  else
    match neuJwtValidate w req.authorization with
    | none => none
    | some code => if code ≠ NEU_ERR_SUCCESS then errorResponse code else next

def processHttpRequest {α : Type} (req : HttpRequest) (decode : Json → Decoded α)
    (func : α → Option Reaction) : Option Reaction :=
  match req.body with
  | none => some badRequest
  | some json =>
    match decode json with
    | .ok decoded => func decoded
    | .error .failed => some badRequest
    | .error .crashed => none

/-- `neu_plugin_op`, with the answer of every handler to its failure. -/
def neuPluginOp (msg : RestMsg) : Option Reaction :=
  if w.sendFails then errorResponse NEU_ERR_IS_BUSY else some ⟨[], some msg⟩

/- The decoders: each asks for texts under these names, in this order. -/

def decodeText (name : String) (json : Json) : Decoded CStr := do
  match ← neuJsonDecodeByJson w.casts (some json) [required name .str] with
  | [some (.str text)] => .ok text
  | _ => .error .failed

def decodeTexts (name other : String) (json : Json) : Decoded (CStr × CStr) := do
  match ← neuJsonDecodeByJson w.casts (some json) [required name .str, required other .str] with
  | [some (.str text), some (.str text')] => .ok (text, text')
  | _ => .error .failed

def decodeLoginReq : Json → Decoded (CStr × CStr) := decodeTexts w "pass" "name"

def decodeAddNodeReq : Json → Decoded (CStr × CStr) := decodeTexts w "plugin" "name"

def decodeUpdateNodeReq : Json → Decoded (CStr × CStr) := decodeTexts w "name" "new_name"

def decodeDelNodeReq : Json → Decoded CStr := decodeText w "name"

def decodeAddPluginReq : Json → Decoded CStr := decodeText w "library"

def decodeDelPluginReq : Json → Decoded CStr := decodeText w "plugin"

def decodeUpdateLogLevelReq : Json → Decoded CStr := decodeText w "node"

structure NeuJsonPasswordReq where
  name : CStr
  oldPass : CStr
  newPass : CStr

def decodePasswordReq (json : Json) : Decoded NeuJsonPasswordReq := do
  match ← neuJsonDecodeByJson w.casts (some json)
    [required "name" .str, required "old_pass" .str, required "new_pass" .str] with
  | [some (.str name), some (.str oldPass), some (.str newPass)] => .ok { name, oldPass, newPass }
  | _ => .error .failed

def decodeNodeCtlReq (json : Json) : Decoded (CStr × Int) := do
  match ← neuJsonDecodeByJson w.casts (some json) [required "node" .str, required "cmd" .int] with
  | [some (.str node), some (.int cmd)] => .ok (node, cmd)
  | _ => .error .failed

/- The handlers. -/

def NEU_USER_PASSWORD_MIN_LEN : ℕ := 4
def NEU_USER_PASSWORD_MAX_LEN : ℕ := 16

def passwordLen (pass : CStr) : Bool :=
  pass.strlen < NEU_USER_PASSWORD_MIN_LEN || NEU_USER_PASSWORD_MAX_LEN < pass.strlen

def handlePing (_ : HttpRequest) : Option Reaction := some ⟨[.ok], none⟩

/-- Without a token the request is answered, and answered once more with what there is of one. -/
def handleLogin (req : HttpRequest) : Option Reaction :=
  processHttpRequest req (decodeLoginReq w) fun (pass, name) =>
    if passwordLen pass then errorResponse NEU_ERR_INVALID_PASSWORD_LEN
    else if neuUserCheckPassword (neuLoadUser name.chars) pass.chars then
      match w.neuJwtNew with
      | some _ => some ⟨[.ok], none⟩
      | none => (neuHttpResponse NEU_ERR_NEED_TOKEN).map fun status => ⟨[status, .ok], none⟩
    else errorResponse NEU_ERR_INVALID_PASSWORD

def changePassword (req : NeuJsonPasswordReq) : Int :=
  if passwordLen req.newPass then NEU_ERR_INVALID_PASSWORD_LEN
  else
    let user := neuLoadUser req.name.chars
    if neuUserCheckPassword user req.oldPass.chars then
      let updated := neuUserUpdatePassword w.evp user req.newPass.chars
      if updated.2 ≠ 0 then updated.2 else neuSaveUser updated.1
    else NEU_ERR_INVALID_PASSWORD

def handlePassword (req : HttpRequest) : Option Reaction :=
  validateJwt w req <| processHttpRequest req (decodePasswordReq w) fun change =>
    errorResponse (changePassword w change)

def handleAddAdapter (req : HttpRequest) : Option Reaction :=
  validateJwt w req <| processHttpRequest req (decodeAddNodeReq w) fun (plugin, name) =>
    if NEU_NODE_NAME_LEN ≤ name.strlen then errorResponse NEU_ERR_NODE_NAME_TOO_LONG
    else do
      let plugin ← strcpy NEU_PLUGIN_NAME_LEN plugin
      neuPluginOp w (.body (.reqAddNode name plugin))

def handleUpdateAdapter (req : HttpRequest) : Option Reaction :=
  validateJwt w req <| processHttpRequest req (decodeUpdateNodeReq w) fun (name, newName) =>
    if NEU_NODE_NAME_LEN ≤ name.strlen then errorResponse NEU_ERR_NODE_NAME_TOO_LONG
    else if NEU_NODE_NAME_LEN ≤ newName.strlen then errorResponse NEU_ERR_NODE_NAME_TOO_LONG
    else if newName.strlen = 0 then errorResponse NEU_ERR_NODE_NAME_EMPTY
    else neuPluginOp w (.updateNode name newName)

def handleDelAdapter (req : HttpRequest) : Option Reaction :=
  validateJwt w req <| processHttpRequest req (decodeDelNodeReq w) fun name => do
    let name ← strcpy NEU_NODE_NAME_LEN name
    neuPluginOp w (.delNode name)

def neuHttpGetParamNodeType (errno : Int) (url name : CStr) : Option Nat :=
  match neuHttpGetParamUintmax errno url name with
  | none => none
  | some val =>
    if val ≠ NeuNodeType.app.code ∧ val ≠ NeuNodeType.ndriver.code ∧
        val ≠ NeuNodeType.driver.code then
      none
    else some val

/-- What a buffer of this size has of a parameter; it is cleared before. -/
def paramText (req : HttpRequest) (name : String) (size : Nat) : CStr :=
  match neuHttpGetParamStr w.lonePrefix req.url (.lit name) size with
  | .ok decoded => if 0 < decoded.count then .read decoded.buffer else .empty
  | .error _ => .empty

def paramGiven (req : HttpRequest) (name : String) (size : Nat) : Bool :=
  match neuHttpGetParamStr w.lonePrefix req.url (.lit name) size with
  | .ok decoded => 0 < decoded.count
  | .error _ => false

def handleGetAdapter (req : HttpRequest) : Option Reaction :=
  validateJwt w req <|
    match neuHttpGetParamNodeType w.errno req.url (.lit "type") with
    | none => errorResponse NEU_ERR_PARAM_IS_WRONG
    | some type => do
      let plugin ← strcpy NEU_PLUGIN_NAME_LEN (paramText w req "plugin" NEU_PLUGIN_NAME_LEN)
      let node ← strcpy NEU_NODE_NAME_LEN (paramText w req "node" NEU_NODE_NAME_LEN)
      neuPluginOp w (.body (.reqGetNode type plugin node))

def handleAddPlugin (req : HttpRequest) : Option Reaction :=
  validateJwt w req <| processHttpRequest req (decodeAddPluginReq w) fun library => do
    let library ← strcpy NEU_PLUGIN_LIBRARY_LEN library
    neuPluginOp w (.addPlugin library)

/-- A name that leaves no room for its terminator is not refused. -/
def handleDelPlugin (req : HttpRequest) : Option Reaction :=
  validateJwt w req <| processHttpRequest req (decodeDelPluginReq w) fun plugin =>
    if plugin.strlen ≤ NEU_PLUGIN_NAME_LEN then do
      let plugin ← strcpy NEU_PLUGIN_NAME_LEN plugin
      neuPluginOp w (.delPlugin plugin)
    else errorResponse NEU_ERR_BODY_IS_WRONG

def handleGetPlugin (req : HttpRequest) : Option Reaction :=
  validateJwt w req <| neuPluginOp w (.body .reqGetPlugin)

def handleNodeCtl (req : HttpRequest) : Option Reaction :=
  validateJwt w req <| processHttpRequest req (decodeNodeCtlReq w) fun (node, cmd) => do
    let node ← strcpy NEU_NODE_NAME_LEN node
    neuPluginOp w (.nodeCtl node (cmd.bmod (2 ^ 32)))

def handleGetNodeState (req : HttpRequest) : Option Reaction :=
  validateJwt w req <|
    if paramGiven w req "node" NEU_NODE_NAME_LEN then do
      let node ← strcpy NEU_NODE_NAME_LEN (paramText w req "node" NEU_NODE_NAME_LEN)
      neuPluginOp w (.getNodeState node)
    else neuPluginOp w (.body .reqGetNodesState)

/-- Each level that cannot be switched is answered, and the request is sent on all the same. -/
def handleLogLevel (req : HttpRequest) : Option Reaction :=
  validateJwt w req <| processHttpRequest req (decodeUpdateLogLevelReq w) fun node => do
    let failed := [node, .lit "neuron"].filter fun category => w.zlogLevelSwitch category ≠ 0
    let early ← failed.mapM fun _ => neuHttpResponse NEU_ERR_EINTERNAL
    let node ← strcpy NEU_NODE_NAME_LEN node
    let last ← neuPluginOp w (.updateLogLevel node)
    return ⟨early ++ last.responses, last.sent⟩

end

/-- The rows of `rest_handlers` with a function, less those of files, logs, the version and the
global configuration. -/
inductive Route where
  | ping
  | login
  | password
  | addNode
  | updateNode
  | deleteNode
  | getNode
  | addPlugin
  | getPlugin
  | deletePlugin
  | nodeCtl
  | nodeState
  | logLevel
  deriving DecidableEq, Repr

def handle {Token : Type} (w : RestWorld Token) : Route → HttpRequest → Option Reaction
  | .ping => handlePing
  | .login => handleLogin w
  | .password => handlePassword w
  | .addNode => handleAddAdapter w
  | .updateNode => handleUpdateAdapter w
  | .deleteNode => handleDelAdapter w
  | .getNode => handleGetAdapter w
  | .addPlugin => handleAddPlugin w
  | .getPlugin => handleGetPlugin w
  | .deletePlugin => handleDelPlugin w
  | .nodeCtl => handleNodeCtl w
  | .nodeState => handleGetNodeState w
  | .logLevel => handleLogLevel w

section
variable {Token : Type} (w : RestWorld Token) (req : HttpRequest)

/-- The key that belongs to an issuer: the first stored key whose name begins with it, else the
neuron key for the issuer "neuron". -/
def KeyFor (keys : JwtState) (issuer key : CStr) : Prop :=
  match findKey keys.keyStore issuer with
  | some i => key = (keys.keyStore[i]?.map StoredKey.key).getD .empty
  | none => issuer = .lit "neuron" ∧ key = keys.neuronPublicKey

/-- The header has a token that its issuer's key verifies with RS256, and that is valid now. -/
def Trusted : Prop :=
  ∃ text issuer key jwt, req.authorization = some text ∧ bearer.strlen < text.strlen ∧
    (w.libjwt.decode (w.parse (text.drop bearer.strlen)) none).bind Jwt.iss = some issuer ∧
    KeyFor w.keys issuer key ∧
    w.libjwt.decode (w.parse (text.drop bearer.strlen)) (some key) = some jwt ∧
    jwt.rs256 = true ∧ w.jwtValidNew = true ∧ w.jwtValidate jwt = .success

def CertsLoad : Prop := (scanfKey w.certs).isSome = true

theorem neuJwtDecode_jwt (token : Token) (jwt : Jwt) :
    (∃ st use, neuJwtDecode w.libjwt w.certs w.keys token = some (st, ⟨use, some jwt⟩)) ↔
      ∃ issuer key, (w.libjwt.decode token none).bind Jwt.iss = some issuer ∧
        KeyFor w.keys issuer key ∧ w.libjwt.decode token (some key) = some jwt ∧
        jwt.rs256 = true := by
  unfold neuJwtDecode
  cases named : (w.libjwt.decode token none).bind Jwt.iss with
  | none => simp [rejected]
  | some issuer =>
    cases found : findKey w.keys.keyStore issuer with
    | some i => simp [KeyFor, found, verify, Option.filter_eq_some_iff]
    | none =>
      by_cases own : issuer = .lit "neuron"
      · simp [KeyFor, own, own ▸ found, verify, Option.filter_eq_some_iff]
      · simp [KeyFor, found, own, rejected]

theorem neuJwtDecode_stops {token : Token}
    (stopped : neuJwtDecode w.libjwt w.certs w.keys token = none) : ¬ CertsLoad w := by
  unfold neuJwtDecode at stopped
  split at stopped
  · cases stopped
  · split at stopped
    · cases stopped
    · split at stopped
      · cases stopped
      · rw [Option.map_eq_none_iff] at stopped
        simp [CertsLoad, stopped]

theorem trusted_iff {text : CStr} (header : req.authorization = some text)
    (long : bearer.strlen < text.strlen) :
    Trusted w req ↔ ∃ st use jwt,
      neuJwtDecode w.libjwt w.certs w.keys (w.parse (text.drop bearer.strlen)) =
        some (st, ⟨use, some jwt⟩) ∧ w.jwtValidNew = true ∧ w.jwtValidate jwt = .success := by
  have decoded := neuJwtDecode_jwt w (w.parse (text.drop bearer.strlen))
  constructor
  · rintro ⟨text', issuer, key, jwt, given, -, named, for_issuer, verified, rs256, ready, valid⟩
    obtain rfl : text = text' := Option.some.inj (header.symm.trans given)
    obtain ⟨st, use, ran⟩ := (decoded jwt).2 ⟨issuer, key, named, for_issuer, verified, rs256⟩
    exact ⟨st, use, jwt, ran, ready, valid⟩
  · rintro ⟨st, use, jwt, ran, ready, valid⟩
    obtain ⟨issuer, key, named, for_issuer, verified, rs256⟩ := (decoded jwt).1 ⟨st, use, ran⟩
    exact ⟨text, issuer, key, jwt, header, long, named, for_issuer, verified, rs256, ready, valid⟩

def TokenRefusal (code : Int) : Prop :=
  ∃ status ∈ [NngHttpStatus.unauthorized, .forbidden, .internalServerError],
    code ≠ NEU_ERR_SUCCESS ∧ errorResponse code = some ⟨[status], none⟩

theorem refusals : ∀ code ∈ [NEU_ERR_NEED_TOKEN, NEU_ERR_DECODE_TOKEN, NEU_ERR_EXPIRED_TOKEN,
    NEU_ERR_VALIDATE_TOKEN, NEU_ERR_EINTERNAL], TokenRefusal code := by
  intro code listed
  simp only [List.mem_cons, List.not_mem_nil, or_false] at listed
  obtain rfl | rfl | rfl | rfl | rfl := listed
  · exact ⟨.unauthorized, by decide, by decide, rfl⟩
  · exact ⟨.unauthorized, by decide, by decide, rfl⟩
  · exact ⟨.forbidden, by decide, by decide, rfl⟩
  · exact ⟨.forbidden, by decide, by decide, rfl⟩
  · exact ⟨.internalServerError, by decide, by decide, rfl⟩

theorem jwtCode_cases (decoded : Option Jwt) :
    (∃ jwt, jwtCode w decoded = NEU_ERR_SUCCESS ∧
      decoded = some jwt ∧ w.jwtValidNew = true ∧ w.jwtValidate jwt = .success) ∨
    TokenRefusal (jwtCode w decoded) ∧
      ∀ jwt, decoded = some jwt → ¬ (w.jwtValidNew = true ∧ w.jwtValidate jwt = .success) := by
  have refusal := refusals
  simp only [List.forall_mem_cons] at refusal
  obtain ⟨-, decode, expired, validate, internal, -⟩ := refusal
  cases decoded with
  | none => exact .inr ⟨decode, fun _ none => by cases none⟩
  | some jwt =>
    by_cases ready : w.jwtValidNew = true
    · cases valid : w.jwtValidate jwt with
      | success =>
        refine .inl ⟨jwt, ?_, rfl, ready, valid⟩
        rw [jwtCode, if_pos ready, valid]
      | expired =>
        have code : jwtCode w (some jwt) = NEU_ERR_EXPIRED_TOKEN := by
          rw [jwtCode, if_pos ready, valid]
        refine .inr ⟨code ▸ expired, ?_⟩
        rintro _ ⟨rfl⟩ ⟨-, success⟩
        cases valid.symm.trans success
      | failed =>
        have code : jwtCode w (some jwt) = NEU_ERR_VALIDATE_TOKEN := by
          rw [jwtCode, if_pos ready, valid]
        refine .inr ⟨code ▸ validate, ?_⟩
        rintro _ ⟨rfl⟩ ⟨-, success⟩
        cases valid.symm.trans success
    · have code : jwtCode w (some jwt) = NEU_ERR_EINTERNAL := by rw [jwtCode, if_neg ready]
      exact .inr ⟨code ▸ internal, fun _ _ valid => ready valid.1⟩

inductive Checked (w : RestWorld Token) (req : HttpRequest) : Prop
  | passed (ran : neuJwtValidate w req.authorization = some NEU_ERR_SUCCESS)
      (trusted : Trusted w req)
  | refused (code : Int) (ran : neuJwtValidate w req.authorization = some code)
      (refusal : TokenRefusal code) (untrusted : ¬ Trusted w req)
  | stopped (ran : neuJwtValidate w req.authorization = none) (untrusted : ¬ Trusted w req)
      (unread : ¬ CertsLoad w)

theorem jwt_checked : Checked w req := by
  have need := refusals NEU_ERR_NEED_TOKEN List.mem_cons_self
  cases header : req.authorization with
  | none =>
    refine .refused NEU_ERR_NEED_TOKEN (by rw [header]; rfl) need ?_
    rintro ⟨text, issuer, key, jwt, given, -⟩
    cases header.symm.trans given
  | some text =>
    by_cases short : text.strlen ≤ bearer.strlen
    · refine .refused NEU_ERR_NEED_TOKEN (by rw [header, neuJwtValidate, if_pos short]) need ?_
      rintro ⟨text', issuer, key, jwt, given, long, -⟩
      cases header.symm.trans given
      omega
    · have trusted := trusted_iff w req header (Nat.lt_of_not_le short)
      have checked : neuJwtValidate w req.authorization =
          (neuJwtDecode w.libjwt w.certs w.keys (w.parse (text.drop bearer.strlen))).map
            fun decoded => jwtCode w decoded.2.jwt := by
        rw [header, neuJwtValidate, if_neg short]
      cases decoded : neuJwtDecode w.libjwt w.certs w.keys (w.parse (text.drop bearer.strlen)) with
      | none =>
        rw [decoded] at checked trusted
        refine .stopped checked ?_ (neuJwtDecode_stops w decoded)
        rw [trusted]
        rintro ⟨_, _, _, ran, -⟩
        cases ran
      | some result =>
        obtain ⟨st, use, jwt⟩ := result
        rw [decoded] at checked trusted
        obtain ⟨code, success, valid⟩ | ⟨refusal, invalid⟩ := jwtCode_cases w jwt
        · refine .passed (checked.trans (congrArg some success)) (trusted.2 ?_)
          exact ⟨st, use, code, by rw [valid.1], valid.2⟩
        · refine .refused _ checked refusal ?_
          rw [trusted]
          rintro ⟨_, _, jwt', ran, valid⟩
          cases ran
          exact invalid jwt' rfl valid

end

def Route.guarded : Route → Bool
  | .ping | .login => false
  | _ => true

theorem handle_guarded {Token : Type} (w : RestWorld Token) (req : HttpRequest) {route : Route}
    (guarded : route.guarded = true) :
    handle w route req = validateJwt w req (handle { w with disableJwt := true } route req) := by
  cases route with
  | ping | login => cases guarded
  | password | addNode | updateNode | deleteNode | getNode | addPlugin | getPlugin | deletePlugin
  | nodeCtl | nodeState | logLevel => rfl

/-- With the check of tokens on, a guarded route does for a trusted request what it does without
the check. Any other request is answered once with an error and nothing is sent for it; where the
certificates cannot be read again it may also end the process. -/
theorem guarded_routes {Token : Type} (w : RestWorld Token) (route : Route) (req : HttpRequest)
    (guarded : route.guarded = true) (on : w.disableJwt = false) :
    (Trusted w req → handle w route req = handle { w with disableJwt := true } route req) ∧
      (¬ Trusted w req →
        (∃ status ∈ [NngHttpStatus.unauthorized, .forbidden, .internalServerError],
          handle w route req = some ⟨[status], none⟩) ∨
        handle w route req = none ∧ ¬ CertsLoad w) := by
  have off : ¬ w.disableJwt = true := by simp [on]
  rw [handle_guarded w req guarded, validateJwt, if_neg off]
  cases jwt_checked w req with
  | passed ran trusted =>
    rw [ran]
    exact ⟨fun _ => rfl, fun untrusted => absurd trusted untrusted⟩
  | refused code ran refusal untrusted =>
    obtain ⟨status, listed, wrong, answered⟩ := refusal
    refine ⟨fun trusted => absurd trusted untrusted, fun _ => .inl ⟨status, listed, ?_⟩⟩
    rw [ran]
    dsimp only
    rw [if_pos wrong]
    exact answered
  | stopped ran untrusted unread =>
    refine ⟨fun trusted => absurd trusted untrusted, fun _ => .inr ⟨?_, unread⟩⟩
    rw [ran]

def loginWorld : RestWorld Unit where
  disableJwt := false
  libjwt := issuedBy "neuron"
  parse := fun _ => ()
  jwtValidNew := true
  jwtValidate := fun _ => .success
  certs := []
  keys := ⟨[], .lit "key"⟩
  neuJwtNew := some (.lit "token")
  evp := evpDigests
  casts := noCasts
  lonePrefix := true
  errno := 0
  sendFails := false
  zlogLevelSwitch := fun _ => 0

def getPluginRequest : HttpRequest := ⟨.lit "/api/v2/plugin", some (.lit "Bearar token"), none⟩

theorem guarded_routes_getPlugin :
    (Trusted loginWorld getPluginRequest → handle loginWorld .getPlugin getPluginRequest =
        handle { loginWorld with disableJwt := true } .getPlugin getPluginRequest) ∧
      (¬ Trusted loginWorld getPluginRequest →
        (∃ status ∈ [NngHttpStatus.unauthorized, .forbidden, .internalServerError],
          handle loginWorld .getPlugin getPluginRequest = some ⟨[status], none⟩) ∨
        handle loginWorld .getPlugin getPluginRequest = none ∧ ¬ CertsLoad loginWorld) :=
  guarded_routes loginWorld .getPlugin getPluginRequest rfl rfl

end Cpm
