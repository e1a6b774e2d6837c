import Cpm.Lib.Buffer
import Cpm.Lib.CString
import Cpm.Lib.Run

/-! The proxy of `http_proxy.c`. The URIs of all its requests are built in one buffer, which keeps
the destination in front and only grows. -/
namespace Cpm

open Lib Lib.Buffer Lib.Run

/-- `uri_buf` is NULL or a block, and the free contexts are counted. -/
structure HttpProxy where
  srcUriLen : Nat
  dstUriLen : Nat
  uriBufLen : Nat
  uriBuf : Option (List Char)
  freeList : Nat
  deriving DecidableEq

/-- Which steps go through, and the request URI of the destination, if that can be parsed. -/
structure ProxyAllocCalls where
  proxy : Bool
  mutex : Bool
  requri : Option CStr
  buffer : Bool
  client : Bool

def httpProxyAlloc (srcUrl : CStr) (calls : ProxyAllocCalls) : Option HttpProxy :=
  if !calls.proxy || !calls.mutex then none
  else match calls.requri with
  | none => none
  | some requri =>
    if !calls.buffer || !calls.client then none
    else some {
      srcUriLen := srcUrl.strlen
      dstUriLen := requri.strlen
      uriBufLen := requri.strlen + 1
      uriBuf := some (requri.chars ++ ['\x00'])
      freeList := 0 }

/-- The allocations for a request; where realloc has room it says what the new bytes hold. -/
structure ProxyCalls where
  realloc : Option (Nat → Char)
  setUri : Bool
  ctx : Bool
  aio : Bool
  res : Bool

def reallocated (old : Option (List Char)) (size : Nat) (memory : Nat → Char) : List Char :=
  (old.getD []).take size ++ (List.range (size - (old.getD []).length)).map memory

def uriLen (proxy : HttpProxy) (uri : CStr) : Nat :=
  uri.strlen - proxy.srcUriLen + proxy.dstUriLen + 1

/-- Pointer and length are updated before it is known whether there is room. -/
def growUriBuf (proxy : HttpProxy) (bufLen : Nat) (realloc : Option (Nat → Char)) : HttpProxy :=
  if proxy.uriBufLen < bufLen then
    { proxy with
      uriBufLen := bufLen
      uriBuf := realloc.map (reallocated proxy.uriBuf bufLen) }
  else proxy

/-- The URI that is set is that of the request; `written` is where the write into the buffer ends. -/
structure SetUri where
  proxy : HttpProxy
  rv : Int
  uri : Option CStr
  written : Nat
  deriving DecidableEq

/-- A write through NULL or over the end of the block has no result. -/
def httpProxySetUri (proxy : HttpProxy) (uri : CStr) (calls : ProxyCalls) : Option SetUri :=
  let grown := growUriBuf proxy (uriLen proxy uri) calls.realloc
  if proxy.uriBufLen < uriLen proxy uri && grown.uriBuf.isNone then some ⟨grown, -1, none, 0⟩
  else do
    let block ← grown.uriBuf
    let block ← write block grown.dstUriLen ((uri.drop grown.srcUriLen).chars ++ ['\x00'])
    let proxy := { grown with uriBuf := some block }
    let written := grown.dstUriLen + (uri.drop grown.srcUriLen).strlen + 1
    if calls.setUri then some ⟨proxy, 0, some (CStr.read block), written⟩
    else some ⟨proxy, -1, none, written⟩

def httpProxyGetCtx (proxy : HttpProxy) (calls : ProxyCalls) : Option HttpProxy :=
  if 0 < proxy.freeList then some { proxy with freeList := proxy.freeList - 1 }
  else if calls.ctx && calls.aio then some proxy
  else none

/-- A request, what `http_proxy_set_uri` made of it, and the URI that it is sent with. -/
structure Proxied where
  request : CStr
  set : SetUri
  sent : Option CStr
  deriving DecidableEq

/-- What is not sent is answered with an error. Without a response the context is given up. -/
def handleProxy (proxy : HttpProxy) (uri : CStr) (calls : ProxyCalls) :
    Option (HttpProxy × Proxied) :=
  (httpProxySetUri proxy uri calls).map fun set =>
    if set.rv ≠ 0 then (set.proxy, ⟨uri, set, none⟩)
    else match httpProxyGetCtx set.proxy calls with
    | none => (set.proxy, ⟨uri, set, none⟩)
    | some proxy => (proxy, ⟨uri, set, if calls.res then set.uri else none⟩)

inductive ProxyEvent where
  | request (uri : CStr) (calls : ProxyCalls)
  | answered

structure ProxyState where
  proxy : HttpProxy
  last : Option Proxied
  deriving DecidableEq

def proxyStep (s : ProxyState) : ProxyEvent → Option ProxyState
  | .request uri calls => (handleProxy s.proxy uri calls).map fun done => ⟨done.1, some done.2⟩
  | .answered => some { s with proxy.freeList := s.proxy.freeList + 1 }

/-- The destination with the rest of the request URI behind it. -/
def rewritten (src dst uri : CStr) : CStr := dst.append (uri.drop src.strlen)

def Serves (src dst : CStr) (proxy : HttpProxy) : Prop :=
  ∀ uri : CStr, src.chars <+: uri.chars → ∀ memory,
    ∃ set, httpProxySetUri proxy uri ⟨some memory, true, true, true, true⟩ = some set ∧ set.rv = 0 ∧
      set.uri = some (rewritten src dst uri)

/-- The last request was rewritten as it should be, and the next ones will be. -/
structure ProxyWorks (src dst : CStr) (s : ProxyState) : Prop where
  serves : Serves src dst s.proxy
  uri : ∀ done, s.last = some done → done.set.rv = 0 →
    done.set.uri = some (rewritten src dst done.request)
  sent : ∀ done uri, s.last = some done → done.sent = some uri →
    done.set.rv = 0 ∧ uri = rewritten src dst done.request
  inside : ∀ done, s.last = some done → done.set.written ≤ done.set.proxy.uriBufLen

/-- The handler tree hands over what is below the source. -/
def Below (src : CStr) (_ : ProxyState) : ProxyEvent → Prop
  | .request uri _ => src.chars <+: uri.chars
  | .answered => True

/-- Where the buffer must grow, there is room. -/
def BufferGrows (s : ProxyState) : ProxyEvent → Prop
  | .request uri calls => s.proxy.uriBufLen < uriLen s.proxy uri → calls.realloc ≠ none
  | .answered => True

/-- The invariant: a block of the recorded length with the destination in front. -/
structure Buffered (src dst : CStr) (proxy : HttpProxy) : Prop where
  source : proxy.srcUriLen = src.strlen
  destination : proxy.dstUriLen = dst.strlen
  block : ∃ block, proxy.uriBuf = some block ∧ block.length = proxy.uriBufLen ∧
    block.take dst.strlen = dst.chars

section
variable {src dst uri : CStr} {proxy : HttpProxy}

theorem reallocated_length (old : Option (List Char)) (size : Nat) (memory : Nat → Char)
    (grows : (old.getD []).length ≤ size) : (reallocated old size memory).length = size := by
  rw [reallocated, List.length_append, List.length_take, List.length_map, List.length_range]
  omega

theorem Buffered.grow (buffered : Buffered src dst proxy) {bufLen : Nat}
    {realloc : Option (Nat → Char)} (room : proxy.uriBufLen < bufLen → realloc ≠ none) :
    Buffered src dst (growUriBuf proxy bufLen realloc) ∧
      bufLen ≤ (growUriBuf proxy bufLen realloc).uriBufLen := by
  obtain ⟨source, destination, block, held, length, front⟩ := buffered
  by_cases more : proxy.uriBufLen < bufLen
  · obtain ⟨memory, here⟩ := Option.ne_none_iff_exists'.mp (room more)
    rw [growUriBuf, if_pos more, here]
    have short : ((proxy.uriBuf).getD []).length ≤ bufLen := by
      rw [held, Option.getD_some]
      omega
    refine ⟨⟨source, destination, _, rfl, reallocated_length _ _ _ short, ?_⟩, Nat.le_refl _⟩
    have fits : dst.strlen ≤ block.length := by
      have cut := congrArg List.length front
      rw [List.length_take] at cut
      have whole : dst.chars.length = dst.strlen := rfl
      omega
    have kept : block.take bufLen = block := List.take_of_length_le (by omega)
    rw [reallocated, held, Option.getD_some, kept, List.take_append_of_le_length fits, front]
  · rw [growUriBuf, if_neg more]
    exact ⟨⟨source, destination, block, held, length, front⟩, by omega⟩

theorem read_terminated (text : CStr) (rest : List Char) :
    CStr.read (text.chars ++ '\x00' :: rest) = text := by
  have front : (text.chars ++ '\x00' :: rest).takeWhile (· != '\x00') = text.chars := by
    rw [List.takeWhile_append_of_pos fun c inside => text.chars_plain inside]
    simp
  exact CStr.ext front

theorem Buffered.setUri (buffered : Buffered src dst proxy) (below : src.chars <+: uri.chars)
    {calls : ProxyCalls} (room : proxy.uriBufLen < uriLen proxy uri → calls.realloc ≠ none) :
    ∃ set, httpProxySetUri proxy uri calls = some set ∧ Buffered src dst set.proxy ∧
      (set.rv = 0 ↔ calls.setUri = true) ∧
      (set.rv = 0 → set.uri = some (rewritten src dst uri)) ∧
      set.written ≤ set.proxy.uriBufLen := by
  obtain ⟨grown, fits⟩ := buffered.grow room
  obtain ⟨source, destination, block, held, length, front⟩ := grown
  have longer : src.strlen ≤ uri.strlen := below.length_le
  have rest : (uri.drop src.strlen).strlen = uri.strlen - src.strlen := List.length_drop
  have target : uriLen proxy uri = uri.strlen - src.strlen + dst.strlen + 1 := by
    rw [uriLen, buffered.source, buffered.destination]
  have there : dst.strlen + ((uri.drop src.strlen).chars ++ ['\x00']).length ≤ block.length := by
    rw [List.length_append, List.length_singleton]
    change dst.strlen + ((uri.drop src.strlen).strlen + 1) ≤ block.length
    omega
  have wrote := write_inside there
  have read : CStr.read (block.take dst.strlen ++ ((uri.drop src.strlen).chars ++ ['\x00'] ++
      block.drop (dst.strlen + ((uri.drop src.strlen).chars ++ ['\x00']).length))) =
        rewritten src dst uri := by
    rw [front, List.append_assoc, ← List.append_assoc]
    exact read_terminated (rewritten src dst uri) _
  have after := write_length wrote
  have kept := write_front wrote (Nat.le_refl _)
  have result : httpProxySetUri proxy uri calls =
      let proxy' := growUriBuf proxy (uriLen proxy uri) calls.realloc
      some ⟨{ proxy' with uriBuf := some (block.take dst.strlen ++
            ((uri.drop src.strlen).chars ++ ['\x00'] ++
              block.drop (dst.strlen + ((uri.drop src.strlen).chars ++ ['\x00']).length))) },
          if calls.setUri then 0 else -1,
          if calls.setUri then some (rewritten src dst uri) else none,
          dst.strlen + (uri.drop src.strlen).strlen + 1⟩ := by
    rw [httpProxySetUri, held]
    simp only [Option.isNone_some, Bool.and_false, Bool.false_eq_true, if_false, source, destination,
      Option.bind_eq_bind, Option.bind_some, wrote, read]
    cases calls.setUri <;> rfl
  refine ⟨_, result, ⟨source, destination, _, rfl, after.trans length, kept.trans front⟩, ?_, ?_, ?_⟩
  · cases calls.setUri <;> simp
  · cases calls.setUri <;> simp
  · change dst.strlen + (uri.drop src.strlen).strlen + 1 ≤
      (growUriBuf proxy (uriLen proxy uri) calls.realloc).uriBufLen
    omega

theorem Buffered.serves (buffered : Buffered src dst proxy) : Serves src dst proxy := by
  intro uri below memory
  obtain ⟨set, result, -, ok, right, -⟩ :=
    @Buffered.setUri _ _ uri _ buffered below ⟨some memory, true, true, true, true⟩
      fun _ => Option.some_ne_none memory
  exact ⟨set, result, ok.mpr rfl, right (ok.mpr rfl)⟩

theorem setUri_stuck {calls : ProxyCalls} (more : proxy.uriBufLen < uriLen proxy uri)
    (none : calls.realloc = none) :
    httpProxySetUri proxy uri calls =
      some ⟨{ proxy with uriBufLen := uriLen proxy uri, uriBuf := .none }, -1, .none, 0⟩ := by
  rw [httpProxySetUri, growUriBuf, if_pos more, none]
  simp [more]

theorem stuck_serves {proxy : HttpProxy} (source : proxy.srcUriLen = src.strlen)
    (lost : proxy.uriBuf = none) (long : proxy.dstUriLen < proxy.uriBufLen) :
    ¬ Serves src dst proxy := by
  intro serves
  obtain ⟨set, result, -⟩ := serves src (List.prefix_rfl) fun _ => 'x'
  have short : ¬ proxy.uriBufLen < uriLen proxy src := by
    rw [uriLen, source]
    omega
  rw [httpProxySetUri, growUriBuf, if_neg short, lost] at result
  simp [short] at result

theorem getCtx_uriBuf {proxy proxy' : HttpProxy} {calls : ProxyCalls}
    (got : httpProxyGetCtx proxy calls = some proxy') :
    ∃ n, proxy' = { proxy with freeList := n } := by
  rw [httpProxyGetCtx] at got
  split at got
  · exact ⟨_, (Option.some.inj got).symm⟩
  · obtain ⟨-, same⟩ := Option.ite_none_right_eq_some.mp got
    exact ⟨proxy.freeList, (Option.some.inj same).symm⟩

theorem Buffered.freeList (buffered : Buffered src dst proxy) (n : Nat) :
    Buffered src dst { proxy with freeList := n } :=
  ⟨buffered.source, buffered.destination, buffered.block⟩

/-- Only the free contexts change after the URI is set. -/
theorem handleProxy_some {calls : ProxyCalls} {set : SetUri}
    (result : httpProxySetUri proxy uri calls = some set) :
    ∃ n sent, handleProxy proxy uri calls =
        some ({ set.proxy with freeList := n }, ⟨uri, set, sent⟩) ∧
      ∀ uri', sent = some uri' → set.rv = 0 ∧ set.uri = some uri' := by
  rw [handleProxy, result, Option.map_some]
  by_cases failed : set.rv ≠ 0
  · rw [if_pos failed]
    refine ⟨set.proxy.freeList, none, rfl, fun uri' none => ?_⟩
    cases none
  · rw [if_neg failed]
    have ok : set.rv = 0 := not_not.mp failed
    cases got : httpProxyGetCtx set.proxy calls with
    | none =>
      refine ⟨set.proxy.freeList, none, rfl, fun uri' none => ?_⟩
      cases none
    | some proxy' =>
      obtain ⟨n, rfl⟩ := getCtx_uriBuf got
      refine ⟨n, _, rfl, fun uri' sent => ⟨ok, ?_⟩⟩
      exact (Option.ite_none_right_eq_some.mp sent).2

theorem proxyStep_works (s : ProxyState) (event : ProxyEvent) (buffered : Buffered src dst s.proxy)
    (works : ProxyWorks src dst s) (below : Below src s event) :
    ∃ s', proxyStep s event = some s' ∧ (ProxyWorks src dst s' ↔ BufferGrows s event) ∧
      (BufferGrows s event → Buffered src dst s'.proxy) := by
  cases event with
  | answered =>
    have kept := buffered.freeList (s.proxy.freeList + 1)
    refine ⟨_, rfl, iff_of_true ⟨kept.serves, works.uri, works.sent, works.inside⟩ trivial,
      fun _ => kept⟩
  | request uri calls =>
    by_cases room : s.proxy.uriBufLen < uriLen s.proxy uri → calls.realloc ≠ none
    · obtain ⟨set, result, after, -, right, inside⟩ := buffered.setUri below room
      obtain ⟨n, sent, handled, good⟩ := handleProxy_some result
      have kept := after.freeList n
      refine ⟨_, by rw [proxyStep, handled]; rfl, iff_of_true ⟨kept.serves, ?_, ?_, ?_⟩ room,
        fun _ => kept⟩
      · rintro done ⟨⟩ ok
        exact right ok
      · rintro done uri' ⟨⟩ there
        obtain ⟨ok, same⟩ := good uri' there
        exact ⟨ok, Option.some.inj (same.symm.trans (right ok))⟩
      · rintro done ⟨⟩
        exact inside
    · push Not at room
      obtain ⟨more, stuck⟩ := room
      obtain ⟨n, sent, handled, -⟩ := handleProxy_some (setUri_stuck more stuck)
      refine ⟨_, by rw [proxyStep, handled]; rfl, ?_, fun room => absurd stuck (room more)⟩
      refine iff_of_false (fun works => ?_) fun room => absurd stuck (room more)
      refine stuck_serves ?_ rfl ?_ works.serves
      · exact buffered.source
      · change s.proxy.dstUriLen < uriLen s.proxy uri
        rw [uriLen]
        omega

theorem alloc_buffered {calls : ProxyAllocCalls} (target : calls.requri = some dst)
    (alloc : httpProxyAlloc src calls = some proxy) : Buffered src dst proxy := by
  simp only [httpProxyAlloc, target, Option.ite_none_left_eq_some, Option.some.injEq] at alloc
  obtain ⟨-, -, rfl⟩ := alloc
  refine ⟨rfl, rfl, _, rfl, ?_, List.take_left⟩
  rw [List.length_append, List.length_singleton]
  rfl

end

theorem proxy_rewrites (src dst : CStr) (calls : ProxyAllocCalls) (proxy : HttpProxy)
    (events : List ProxyEvent) (target : calls.requri = some dst)
    (alloc : httpProxyAlloc src calls = some proxy)
    (below : Along proxyStep (Below src) ⟨proxy, none⟩ events) :
    (∀ front, front <+: events → ∃ s, front.foldlM proxyStep ⟨proxy, none⟩ = some s ∧
        ProxyWorks src dst s) ↔
      Along proxyStep BufferGrows ⟨proxy, none⟩ events := by
  have buffered := alloc_buffered target alloc
  have fresh : ProxyWorks src dst ⟨proxy, none⟩ := by
    refine ⟨buffered.serves, fun done other => ?_, fun done uri other => ?_, fun done other => ?_⟩
    · cases other
    · cases other
    · cases other
  have progress (s : ProxyState) (event : ProxyEvent)
      (inv : Buffered src dst s.proxy ∧ ProxyWorks src dst s) (below : Below src s event) :
      ∃ s', proxyStep s event = some s' ∧ (ProxyWorks src dst s' ↔ BufferGrows s event) ∧
        (BufferGrows s event → Buffered src dst s'.proxy ∧ ProxyWorks src dst s') := by
    obtain ⟨s', stepped, works, kept⟩ := proxyStep_works s event inv.1 inv.2 below
    exact ⟨s', stepped, works, fun grows => ⟨kept grows, works.mpr grows⟩⟩
  exact (along_iff_good progress ⟨buffered, fresh⟩ fresh below).symm

def apiProxy : HttpProxy := ⟨4, 3, 4, some "/v2\x00".toList, 0⟩

def allGranted : ProxyCalls := ⟨some fun _ => 'x', true, true, true, true⟩

theorem proxy_rewrites_two :
    (∀ front, front <+: [.request (.lit "/api/a") allGranted, .request (.lit "/api") allGranted] →
        ∃ s, front.foldlM proxyStep ⟨apiProxy, none⟩ = some s ∧
          ProxyWorks (.lit "/api") (.lit "/v2") s) ↔
      Along proxyStep BufferGrows ⟨apiProxy, none⟩
        [.request (.lit "/api/a") allGranted, .request (.lit "/api") allGranted] := by
  refine proxy_rewrites (.lit "/api") (.lit "/v2") ⟨true, true, some (.lit "/v2"), true, true⟩ apiProxy
    _ rfl ?_ ?_
  · decide
  · refine ⟨?_, fun s' _ => ⟨?_, fun s'' _ => trivial⟩⟩
    · exact ⟨"/a".toList, by decide⟩
    · exact ⟨[], by decide⟩

/-- After an allocation that failed, a shorter URI is written to NULL, and a longer one gets a new
block without the destination. -/
theorem proxy_rewrites_stuck :
    httpProxyAlloc (.lit "/api") ⟨true, true, some (.lit "/v2"), true, true⟩ = some apiProxy ∧
    (¬ ∀ front, front <+: [.request (.lit "/api/a") { allGranted with realloc := none }] →
      ∃ s, front.foldlM proxyStep ⟨apiProxy, none⟩ = some s ∧
        ProxyWorks (.lit "/api") (.lit "/v2") s) ∧
    [.request (.lit "/api/a") { allGranted with realloc := none },
      .request (.lit "/api/b") allGranted].foldlM proxyStep ⟨apiProxy, none⟩ = none ∧
    ([.request (.lit "/api/a") { allGranted with realloc := none },
      .request (.lit "/api/long") allGranted].foldlM proxyStep ⟨apiProxy, none⟩).map
        (fun s => s.last.map fun done => (done.set.rv, done.sent)) =
      some (some (0, some (.lit "xxx/long"))) := by
  refine ⟨by decide, fun always => ?_, by decide, by decide⟩
  obtain ⟨s, ran, works⟩ := always _ List.prefix_rfl
  have stuck : [.request (.lit "/api/a") { allGranted with realloc := none }].foldlM proxyStep
      ⟨apiProxy, none⟩ = some ⟨⟨4, 3, 6, none, 0⟩,
        some ⟨.lit "/api/a", ⟨⟨4, 3, 6, none, 0⟩, -1, none, 0⟩, none⟩⟩ := by decide
  obtain rfl := Option.some.inj (ran.symm.trans stuck)
  exact stuck_serves (by decide) rfl (by decide) works.serves

end Cpm
