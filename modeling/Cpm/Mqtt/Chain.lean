import Cpm.Mqtt.Service

/-! The if/else chain of `messageArrived5` as a list of tests, and the order of the tests. -/
namespace Cpm.Mqtt

open Lib Lib.Paths TopicWildcard

structure Branch where
  filter : TopicWildcard
  hands : CStr → List Char → List Handoff

def deviceBranch (filter : TopicWildcard) (forward : Forwarding) (method : EsvThingModelMsgMethod)
    (startTokenIndex : Nat) (pkDn : Option CStr × Option CStr) : Branch :=
  ⟨filter, fun topic payload =>
    [⟨forward, thingModelMsg method
      (getPkDnFromThingsubTopic topic startTokenIndex pkDn.1 pkDn.2) payload⟩]⟩

def broadcastBranch (filter : TopicWildcard) (method : EsvThingModelMsgMethod) : Branch :=
  ⟨filter, fun _ payload => [⟨.toAllEsvdevicedriver, thingModelMsg method noDevice payload⟩]⟩

def branches : List Branch :=
  [deviceBranch wanThingsubPropertySet .toEsvdriver .wanSubthingThingServicePropertySet 5
      (none, none),
    deviceBranch wanThingPluginNodeActionPush .controlToEsvdriver
      .wanSubthingThingPluginNodeActionPush 1 (none, none),
    deviceBranch wanThingsubPropertyGet .toEsvdriver .wanSubthingThingServicePropertyGet 5
      (none, none),
    deviceBranch wanThingPluginConfigPush .controlToEsvdriver
      .wanSubthingThingPluginNodeConfigPush 1 (none, none),
    ⟨appThingPluginConfigPush, fun topic payload =>
      let pluginNodeId := getDataFromTopic topic 3 none
      [⟨.matterReloadToEsvdriver,
        { thingModelMsg .appThingPluginNodeConfigPush noDevice payload with
          msg := (CStr.read payload).chars
          pluginId := (pluginNodeId.map CStr.atoi).getD 0 }⟩]⟩,
    ⟨appThingPluginReloadConfigPush, fun _ payload =>
      [⟨.matterReloadToEsvdriver,
        { thingModelMsg .appThingPluginNodeConfigPush noDevice payload with
          msg := (CStr.read payload).chars }⟩]⟩,
    broadcastBranch wanThingDiscovery .wanThingDiscovery,
    deviceBranch wanThingsubDiscovery .toAllEsvdevicedriver .wanSubthingThingDiscovery 5 noDevice,
    deviceBranch wanThingsubDiscovery .toAllEsvdevicedriver .wanSubthingThingConfigPush 5 noDevice,
    ⟨wanEasyhbesThingPluginNodeConfigPush, fun topic payload =>
      let pluginNodeId := getDataFromTopic topic 4 (some .empty)
      [⟨.toPluginNode pluginNodeId,
        { thingModelMsg .wanEasyhbesThingPluginNodeConfigPush noDevice payload with
          pluginId := (pluginNodeId.map CStr.atoi).getD 0 }⟩]⟩,
    ⟨wanThingRestartSet, fun _ _ => []⟩,
    deviceBranch lanThingsubServicePropertyGet .toEsvdriver .lanSubthingThingServicePropertyGet 3
      (none, none),
    deviceBranch lanThingsubServicePropertySet .toEsvdriver .lanSubthingThingServicePropertySet 3
      (none, none),
    deviceBranch lanThingsubEventPropertyPost .toEsvdriver .lanSubthingThingEventPropertyPost 3
      (none, none),
    broadcastBranch lanThingServicePropertyPostreq .lanThingServicePropertyPostreq]

def Branch.takes (topic : CStr) (branch : Branch) : Bool :=
  topicMatchesWildcard topic branch.filter.text

def firstBranch (chain : List Branch) (topic : CStr) (payload : List Char) : List Handoff :=
  match chain.find? (·.takes topic) with
  | some branch => branch.hands topic payload
  | none => []

def testedFilters : List TopicWildcard := branches.map Branch.filter

@[simp] theorem firstBranch_nil (topic : CStr) (payload : List Char) :
    firstBranch [] topic payload = [] := rfl

@[simp] theorem firstBranch_cons (branch : Branch) (chain : List Branch) (topic : CStr)
    (payload : List Char) :
    firstBranch (branch :: chain) topic payload =
      if topicMatchesWildcard topic branch.filter.text then branch.hands topic payload
      else firstBranch chain topic payload := by
  cases taken : topicMatchesWildcard topic branch.filter.text <;>
    simp [firstBranch, Branch.takes, taken]

theorem messageArrived5_chain (topic : CStr) (payload : List Char) :
    messageArrived5 topic payload = firstBranch branches topic payload := by
  simp only [branches, firstBranch_cons, firstBranch_nil]
  rfl

theorem matches_same {f g : TopicWildcard} {topic : CStr}
    (first : topicMatchesWildcard topic f.text = true)
    (second : topicMatchesWildcard topic g.text = true) : f = g := by
  have only := matches_only ((matches_text g topic).mp second) f
  simpa [first] using only

/-- Only the tests of the filter that matches decide, in their own order. -/
theorem firstBranch_filter (chain : List Branch) {filter : TopicWildcard} {topic : CStr}
    (payload : List Char) (arrived : topicMatchesWildcard topic filter.text = true) :
    firstBranch chain topic payload =
      firstBranch (chain.filter (·.filter = filter)) topic payload := by
  induction chain with
  | nil => rfl
  | cons branch chain ih =>
    by_cases same : branch.filter = filter
    · simp [same, arrived]
    · have passed : ¬ topicMatchesWildcard topic branch.filter.text = true :=
        fun taken => same (matches_same taken arrived)
      simpa [same, passed] using ih

theorem firstBranch_taken (chain : List Branch) (branch : Branch) {topic : CStr}
    (payload : List Char) (first : chain.find? (·.filter = branch.filter) = some branch)
    (arrived : topicMatchesWildcard topic branch.filter.text = true) :
    firstBranch chain topic payload = branch.hands topic payload := by
  rw [firstBranch_filter chain payload arrived]
  rw [← List.head?_filter] at first
  obtain ⟨later, split⟩ := List.head?_eq_some_iff.mp first
  simp [split, arrived]

theorem firstBranch_unmatched {chain : List Branch} {topic : CStr} (payload : List Char)
    (unmatched : ∀ f : TopicWildcard, topicMatchesWildcard topic f.text = false) :
    firstBranch chain topic payload = [] := by
  induction chain with
  | nil => rfl
  | cons branch chain ih => simp [unmatched, ih]

/-- A topic matches one of the tested filters at most, so that tests of distinct filters
can change places: any chain with the same branches for each filter does the same. -/
theorem testedFilters_disjoint (topic : CStr) :
    (∀ f ∈ testedFilters, ∀ g ∈ testedFilters, topicMatchesWildcard topic f.text = true →
      topicMatchesWildcard topic g.text = true → f = g) ∧
    ∀ (payload : List Char) (chain : List Branch),
      (∀ f : TopicWildcard,
        chain.filter (·.filter = f) = branches.filter (·.filter = f)) →
      firstBranch chain topic payload = messageArrived5 topic payload := by
  constructor
  · intro f _ g _ first second
    exact matches_same first second
  · intro payload chain same
    rw [messageArrived5_chain]
    by_cases found : ∃ f : TopicWildcard, topicMatchesWildcard topic f.text = true
    · obtain ⟨f, arrived⟩ := found
      rw [firstBranch_filter chain payload arrived, firstBranch_filter branches payload arrived,
        same f]
    · have unmatched : ∀ f : TopicWildcard, topicMatchesWildcard topic f.text = false := by
        simpa using found
      rw [firstBranch_unmatched payload unmatched, firstBranch_unmatched payload unmatched]

theorem testedFilters_disjoint_rotated :
    firstBranch (branches.getLast (by decide) :: branches.dropLast)
      (.lit "wan/gw/one/thing/discovery") [] =
      messageArrived5 (.lit "wan/gw/one/thing/discovery") [] :=
  (testedFilters_disjoint (.lit "wan/gw/one/thing/discovery")).2 [] _
    (fun f => by cases f <;> rfl)

end Cpm.Mqtt
