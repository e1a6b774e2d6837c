import Cpm.Mqtt.Extraction
import Mathlib.Algebra.Order.Group.Multiset
import Mathlib.Data.Finset.Basic

/-! The memory that `messageArrived5` handles: which blocks it allocates, hands on and frees for a
topic. The library leaves the topic and the message to it. How far a block is read is not followed;
the log lines read behind a payload that has no terminator. -/
namespace Cpm.Mqtt

open Lib Lib.Paths TopicWildcard

/-- `topicCopy` is the string that `strtok` cuts up. -/
inductive Block where
  | topicName
  | message
  | topicCopy
  | pk
  | dn
  | pluginNodeId
  | payload
  | thingModelMsg
  deriving DecidableEq, Repr

/-- `literal` is `""`, and `indeterminate` a variable that was never set. -/
inductive Pointer where
  | block (b : Block)
  | literal
  | null
  | indeterminate
  deriving DecidableEq, Repr

/-- `use` hands on a pointer to a block. -/
inductive HeapOp where
  | alloc (b : Block)
  | use (p : Pointer)
  | free (p : Pointer)
  deriving DecidableEq, Repr

/-- There is no step from memory that is gone or was never there. -/
def heapStep (heap : Finset Block) : HeapOp → Option (Finset Block)
  | .alloc b => some (insert b heap)
  | .use (.block b) => if b ∈ heap then some heap else none
  | .use .literal => some heap
  | .use _ => none
  | .free (.block b) => if b ∈ heap then some (heap.erase b) else none
  | .free .null => some heap
  | .free _ => none

/- The branches. -/

/-- An output that keeps what was given where the topic has too few tokens. -/
def output (topic : CStr) (i : Nat) (b : Block) (given : Pointer) : Pointer :=
  if i < (tokens topic).length then .block b else given

def assign (topic : CStr) (i : Nat) (b : Block) : List HeapOp :=
  if i < (tokens topic).length then [.alloc b] else []

def pkDnOps (topic : CStr) (start : Nat) : List HeapOp :=
  [.use (.block .topicName), .alloc .topicCopy] ++ assign topic start .pk ++
    assign topic (start + 1) .dn ++ [.free (.block .topicCopy)]

def dataOps (topic : CStr) (start : Nat) : List HeapOp :=
  [.use (.block .topicName), .alloc .topicCopy] ++ assign topic start .pluginNodeId ++
    [.free (.block .topicCopy)]

def handOver (copied : List HeapOp) (further : List Pointer) : List HeapOp :=
  .alloc .thingModelMsg :: copied ++ (.block .thingModelMsg :: further).map .use

def release : List HeapOp :=
  [.free (.block .thingModelMsg), .free (.block .message), .free (.block .topicName)]

def deviceOps (topic : CStr) (start : Nat) (given : Pointer) : List HeapOp :=
  let pk := output topic start .pk given
  let dn := output topic (start + 1) .dn given
  pkDnOps topic start ++ handOver [] [pk, dn, .block .message] ++ [.free pk, .free dn] ++ release

def broadcastOps : List HeapOp := handOver [] [.literal, .block .message] ++ release

def copyOps : List HeapOp := [.use (.block .message), .alloc .payload]

def arrivalOps (topicName : CStr) : List HeapOp :=
  if topicMatchesWildcard topicName wanThingsubPropertySet.text then
    deviceOps topicName 5 .indeterminate
  else if topicMatchesWildcard topicName wanThingPluginNodeActionPush.text then
    deviceOps topicName 1 .indeterminate
  else if topicMatchesWildcard topicName wanThingsubPropertyGet.text then
    deviceOps topicName 5 .indeterminate
  else if topicMatchesWildcard topicName wanThingPluginConfigPush.text then
    deviceOps topicName 1 .indeterminate
  else if topicMatchesWildcard topicName appThingPluginConfigPush.text then
    dataOps topicName 3 ++
      handOver copyOps [output topicName 3 .pluginNodeId .null, .block .payload] ++ release
  else if topicMatchesWildcard topicName appThingPluginReloadConfigPush.text then
    handOver copyOps [.block .payload] ++ release
  else if topicMatchesWildcard topicName wanThingDiscovery.text then
    broadcastOps
  else if topicMatchesWildcard topicName wanThingsubDiscovery.text then
    deviceOps topicName 5 .literal
  else if topicMatchesWildcard topicName wanThingsubDiscovery.text then
    deviceOps topicName 5 .literal
  else if topicMatchesWildcard topicName wanEasyhbesThingPluginNodeConfigPush.text then
    dataOps topicName 4 ++
      handOver [] [output topicName 4 .pluginNodeId .literal, .block .message] ++ release
  else if topicMatchesWildcard topicName wanThingRestartSet.text then
    []
  else if topicMatchesWildcard topicName lanThingsubServicePropertyGet.text then
    deviceOps topicName 3 .indeterminate
  else if topicMatchesWildcard topicName lanThingsubServicePropertySet.text then
    deviceOps topicName 3 .indeterminate
  else if topicMatchesWildcard topicName lanThingsubEventPropertyPost.text then
    deviceOps topicName 3 .indeterminate
  else if topicMatchesWildcard topicName lanThingServicePropertyPostreq.text then
    broadcastOps
  else []

def delivered : Finset Block := {.topicName, .message}

def arrivalHeap (topicName : CStr) : Option (Finset Block) :=
  (.use (.block .topicName) :: arrivalOps topicName).foldlM heapStep delivered

/- What is left, and when the branch cannot be carried out. -/

/-- The topics of these filters keep some of their blocks. -/
def TopicWildcard.leaks : TopicWildcard → Finset Block
  | appThingPluginConfigPush => {.pluginNodeId, .payload}
  | appThingPluginReloadConfigPush => {.payload}
  | wanEasyhbesThingPluginNodeConfigPush => {.pluginNodeId}
  | wanThingRestartSet | wanThingsubConfigPush | lanThingPluginConfigPush
  | lanThingsubServicePropertySetreply | lanThingsubServicePropertyGetreply => delivered
  | _ => ∅

def leaked (topicName : CStr) : Finset Block :=
  ((topicsToSubscribe.find? fun filter => topicMatchesWildcard topicName filter.text).map
    TopicWildcard.leaks).getD delivered

/-- A sub-device discovery whose topic has too few levels that are not empty frees `""`. -/
def FreesLiteral (topicName : CStr) : Prop :=
  LevelMatch topicName wanThingsubDiscovery.text ∧ (tokens topicName).length < 7

instance (topicName : CStr) : Decidable (FreesLiteral topicName) :=
  inferInstanceAs (Decidable (_ ∧ _))

/-- The levels that a topic has to have, and that are tokens of it. -/
def TopicWildcard.fixedLevels (filter : TopicWildcard) : Nat :=
  (pattern filter.text.chars).countP fun level => fixedLevel (some level)

section
variable {topic : CStr}

theorem fixedLevels_le {filter : TopicWildcard} (arrived : LevelMatch topic filter.text) :
    filter.fixedLevels ≤ (tokens topic).length := by
  have length : (tokens topic).length = (levels topic.chars).countP (· ≠ []) := by
    rw [tokens, List.length_map, ← List.countP_eq_length_filter]
  rw [length]
  apply Matches.countP_le _ rfl arrived
  intro p a covered fixed
  obtain ⟨c, rest, same⟩ := fixedLevel_iff.1 fixed
  cases same
  rw [← covers_exact.1 covered]
  rfl

theorem assign_token {i : Nat} (there : i < (tokens topic).length) (b : Block) :
    assign topic i b = [.alloc b] := if_pos there

theorem output_token {i : Nat} (there : i < (tokens topic).length) (b : Block) (given : Pointer) :
    output topic i b given = .block b := if_pos there

/-- A branch that finds both tokens gives back all that it took. -/
theorem deviceOps_clean {start : Nat} (there : start + 1 < (tokens topic).length)
    (given : Pointer) : (deviceOps topic start given).foldlM heapStep delivered = some ∅ := by
  have here : start < (tokens topic).length := by omega
  rw [deviceOps, pkDnOps, assign_token here, assign_token there, output_token here,
    output_token there]
  rfl

/-- One `""` at least is freed. -/
theorem deviceOps_literal {start : Nat} (few : (tokens topic).length ≤ start + 1) :
    (deviceOps topic start .literal).foldlM heapStep delivered = none := by
  have missing : ¬ start + 1 < (tokens topic).length := by omega
  rw [deviceOps, pkDnOps, assign, assign, output, output, if_neg missing, if_neg missing]
  by_cases here : start < (tokens topic).length
  · rw [if_pos here, if_pos here]
    rfl
  · rw [if_neg here, if_neg here]
    rfl

theorem arrivalHeap_eq : arrivalHeap topic = (arrivalOps topic).foldlM heapStep delivered := rfl

theorem enough {filter : TopicWildcard} (arrived : LevelMatch topic filter.text) {n : Nat}
    (fixed : n ≤ filter.fixedLevels) : n ≤ (tokens topic).length :=
  Nat.le_trans fixed (fixedLevels_le arrived)

theorem device_heap {filter : TopicWildcard} (arrived : LevelMatch topic filter.text) {start : Nat}
    {given : Pointer} (branch : arrivalOps topic = deviceOps topic start given)
    (fixed : start + 2 ≤ filter.fixedLevels) : arrivalHeap topic = some ∅ := by
  rw [arrivalHeap_eq, branch]
  exact deviceOps_clean (enough arrived fixed) given

/-- The plugin id that `get_data_from_topic` took is not given back. -/
theorem easyHbes_heap (arrived : LevelMatch topic wanEasyhbesThingPluginNodeConfigPush.text) :
    arrivalHeap topic = some {.pluginNodeId} := by
  have there : 4 < (tokens topic).length :=
    enough arrived (by rw [fixedLevels, TopicWildcard.text, CStr.chars_lit]; decide)
  have branch : arrivalOps topic = dataOps topic 4 ++
      handOver [] [output topic 4 .pluginNodeId .literal, .block .message] ++ release := by
    simp [arrivalOps, matches_only arrived]
  rw [arrivalHeap_eq, branch, dataOps, assign_token there, output_token there]
  rfl

theorem matter_heap (arrived : LevelMatch topic appThingPluginConfigPush.text) :
    arrivalHeap topic = some {.pluginNodeId, .payload} := by
  have there : 3 < (tokens topic).length :=
    enough arrived (by rw [fixedLevels, TopicWildcard.text, CStr.chars_lit]; decide)
  have branch : arrivalOps topic = dataOps topic 3 ++
      handOver copyOps [output topic 3 .pluginNodeId .null, .block .payload] ++ release := by
    simp [arrivalOps, matches_only arrived]
  rw [arrivalHeap_eq, branch, dataOps, assign_token there, output_token there]
  decide

theorem discovery_heap (arrived : LevelMatch topic wanThingsubDiscovery.text) :
    arrivalHeap topic = if FreesLiteral topic then none else some ∅ := by
  have branch : arrivalOps topic = deviceOps topic 5 .literal := by
    simp [arrivalOps, matches_only arrived]
  rw [arrivalHeap_eq, branch]
  by_cases literal : FreesLiteral topic
  · rw [if_pos literal, deviceOps_literal (by have few := literal.2; omega)]
  · rw [if_neg literal]
    apply deviceOps_clean
    have many : ¬ (tokens topic).length < 7 := fun few => literal ⟨arrived, few⟩
    omega

theorem arrival_heap {filter : TopicWildcard} (arrived : LevelMatch topic filter.text)
    (literal : ¬ FreesLiteral topic) : arrivalHeap topic = some filter.leaks := by
  cases filter with
  | appThingPluginConfigPush => exact matter_heap arrived
  | wanEasyhbesThingPluginNodeConfigPush => exact easyHbes_heap arrived
  | wanThingsubDiscovery => rw [discovery_heap arrived, if_neg literal]; rfl
  | wanThingsubPropertySet | wanThingsubPropertyGet | wanThingPluginConfigPush
  | wanThingPluginNodeActionPush | lanThingsubEventPropertyPost | lanThingsubServicePropertySet
  | lanThingsubServicePropertyGet =>
    apply device_heap arrived
    · simp only [arrivalOps, matches_only arrived, reduceCtorEq, decide_false, decide_true,
        Bool.false_eq_true, if_false, if_true]
      rfl
    · rw [fixedLevels, TopicWildcard.text, CStr.chars_lit]
      decide
  | _ =>
    simp only [arrivalHeap_eq, arrivalOps, matches_only arrived, reduceCtorEq, decide_false,
      decide_true, Bool.false_eq_true, if_false, if_true]
    rfl

theorem stray_missed (stray : ∀ filter : TopicWildcard, ¬ LevelMatch topic filter.text)
    (filter : TopicWildcard) : topicMatchesWildcard topic filter.text = false := by
  simpa using mt (matches_text filter topic).mp (stray filter)

/-- What no subscription asked for is left where it is. -/
theorem stray_heap (stray : ∀ filter : TopicWildcard, ¬ LevelMatch topic filter.text) :
    arrivalHeap topic = some delivered := by
  rw [arrivalHeap_eq, arrivalOps]
  simp only [stray_missed stray, Bool.false_eq_true, if_false]
  rfl

theorem leaked_of {filter : TopicWildcard} (arrived : LevelMatch topic filter.text) :
    leaked topic = filter.leaks := by
  have found : topicsToSubscribe.find? (fun other => topicMatchesWildcard topic other.text) =
      some filter := by
    simp only [matches_only arrived]
    cases filter <;> decide
  rw [leaked, found]
  rfl

theorem leaked_stray (stray : ∀ filter : TopicWildcard, ¬ LevelMatch topic filter.text) :
    leaked topic = delivered := by
  have none_found : topicsToSubscribe.find? (fun other => topicMatchesWildcard topic other.text) =
      none := by
    simp [List.find?_eq_none, stray_missed stray]
  rw [leaked, none_found]
  rfl

theorem deviceOps_builds (start : Nat) (given : Pointer) :
    .alloc .thingModelMsg ∈ deviceOps topic start given := by
  simp [deviceOps, handOver]

theorem built_handed (topic : CStr) (payload : List Char) :
    .alloc .thingModelMsg ∈ arrivalOps topic ↔ messageArrived5 topic payload ≠ [] := by
  by_cases subscribed : ∃ filter : TopicWildcard, LevelMatch topic filter.text
  · obtain ⟨filter, arrived⟩ := subscribed
    cases filter <;>
      simp [arrivalOps, messageArrived5, matches_only arrived, deviceOps_builds, broadcastOps,
        handOver]
  · rw [not_exists] at subscribed
    simp [arrivalOps, messageArrived5, stray_missed subscribed]

theorem arrivalHeap_leaked (topic : CStr) :
    arrivalHeap topic = if FreesLiteral topic then none else some (leaked topic) := by
  by_cases subscribed : ∃ filter : TopicWildcard, LevelMatch topic filter.text
  · obtain ⟨filter, arrived⟩ := subscribed
    by_cases literal : FreesLiteral topic
    · rw [discovery_heap literal.1, if_pos literal, if_pos literal]
    · rw [arrival_heap arrived literal, leaked_of arrived, if_neg literal]
  · rw [not_exists] at subscribed
    have plain : ¬ FreesLiteral topic := fun literal => subscribed _ literal.1
    rw [stray_heap subscribed, leaked_stray subscribed, if_neg plain]

end

/- Arrival after arrival. -/

def arrivalsStep (left : Multiset Block) (topicName : CStr) : Option (Multiset Block) :=
  (arrivalHeap topicName).map fun heap => left + heap.val

def arrivals (topics : List CStr) : Option (Multiset Block) := topics.foldlM arrivalsStep 0

theorem arrivals_from (topics : List CStr) (left : Multiset Block) :
    topics.foldlM arrivalsStep left = if ∃ topic ∈ topics, FreesLiteral topic then none
      else some (left + (topics.map fun topic => (leaked topic).val).sum) := by
  induction topics generalizing left with
  | nil => simp
  | cons topic topics ih =>
    rw [List.foldlM_cons, arrivalsStep, arrivalHeap_leaked]
    by_cases literal : FreesLiteral topic
    · simp [literal]
    · simp [literal, ih, add_assoc]

/-- Arrivals go well until a sub-device discovery without its two names, and each one leaves what its
filter leaves. -/
theorem arrivals_heap (topics : List CStr) :
    arrivals topics = if ∃ topic ∈ topics, FreesLiteral topic then none
      else some ((topics.map fun topic => (leaked topic).val).sum) := by
  rw [arrivals, arrivals_from, zero_add]

end Cpm.Mqtt
