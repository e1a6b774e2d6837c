import Cpm.Mqtt.Chain

/-! What a branch extracts from its topic, against the levels under the wildcards of its
filter. The extraction counts tokens, the matcher counts levels. -/
namespace Cpm.Mqtt

open Lib Lib.Paths TopicWildcard

/-- The function that a branch calls, and from which token on. -/
inductive Extraction where
  | pkDn (startTokenIndex : Nat)
  | data (startTokenIndex : Nat)
  deriving DecidableEq, Repr

def TopicWildcard.extraction : TopicWildcard → Option Extraction
  | wanThingsubPropertySet | wanThingsubPropertyGet | wanThingsubDiscovery => some (.pkDn 5)
  | wanThingPluginNodeActionPush | wanThingPluginConfigPush => some (.pkDn 1)
  | lanThingsubServicePropertyGet | lanThingsubServicePropertySet
  | lanThingsubEventPropertyPost => some (.pkDn 3)
  | appThingPluginConfigPush => some (.data 3)
  | wanEasyhbesThingPluginNodeConfigPush => some (.data 4)
  | wanThingDiscovery | wanThingsubConfigPush | wanThingRestartSet | lanThingPluginConfigPush
  | appThingPluginReloadConfigPush | lanThingsubServicePropertySetreply
  | lanThingsubServicePropertyGetreply | lanThingServicePropertyPostreq => none

def Extraction.start : Extraction → Nat
  | pkDn startTokenIndex | data startTokenIndex => startTokenIndex

/-- Where in the filter the wildcards stand whose levels are wanted. -/
def Extraction.positions : Extraction → List Nat
  | pkDn startTokenIndex => [startTokenIndex, startTokenIndex + 1]
  | data startTokenIndex => [startTokenIndex]

/-- What the call assigns; `none` is an output that it leaves alone. -/
def Extraction.outputs (topic : CStr) : Extraction → List (Option CStr)
  | pkDn startTokenIndex =>
    [(getPkDnFromThingsubTopic topic startTokenIndex none none).1,
      (getPkDnFromThingsubTopic topic startTokenIndex none none).2]
  | data startTokenIndex => [getDataFromTopic topic startTokenIndex none]

def levelAt (topic : CStr) (i : Nat) : Option CStr := (levels topic.chars)[i]?.map .read

/-- The message takes on the levels that stand under the wildcards. -/
def Extraction.HandsOn (topic : CStr) (handoff : Handoff) : Extraction → Prop
  | pkDn startTokenIndex =>
    handoff.msg.productKey = levelAt topic startTokenIndex ∧
      handoff.msg.deviceName = levelAt topic (startTokenIndex + 1)
  | data startTokenIndex =>
    handoff.msg.pluginId = ((levelAt topic startTokenIndex).map CStr.atoi).getD 0 ∧
      ∀ pluginNodeId, handoff.forward = .toPluginNode pluginNodeId →
        pluginNodeId = levelAt topic startTokenIndex

/-- Every output is assigned and is the level under its wildcard, and so is what the
message carries. -/
def ExtractsWildcards (extraction : Extraction) (topic : CStr) (payload : List Char) : Prop :=
  (∀ output ∈ extraction.outputs topic, output.isSome = true) ∧
    extraction.outputs topic = extraction.positions.map (levelAt topic) ∧
    ∃ handoff, messageArrived5 topic payload = [handoff] ∧ extraction.HandsOn topic handoff

def Extraction.gaps (topic : CStr) (extraction : Extraction) : Nat :=
  ((levels topic.chars).take extraction.start).countP (· = [])

/-- No wanted level is empty, and each is the same as the level that stands as many places
behind it as there are empty levels before. -/
def Extraction.Undisplaced (topic : CStr) (extraction : Extraction) : Prop :=
  ∀ i ∈ extraction.positions, levelAt topic i ≠ some .empty ∧
    levelAt topic (i + extraction.gaps topic) = levelAt topic i

instance (topic : CStr) (extraction : Extraction) : Decidable (extraction.Undisplaced topic) :=
  inferInstanceAs (Decidable (∀ i ∈ extraction.positions, _))

def fixedLevel : Option (Level (List Char)) → Bool
  | some (.exact (_ :: _)) => true
  | _ => false

/-- The start index points at wildcards; behind them the filter fixes every level. -/
def Extraction.Fits (ps : List (Level (List Char))) (extraction : Extraction) : Prop :=
  .rest ∉ ps ∧ (∀ i ∈ extraction.positions, ps[i]? = some .any) ∧
    ∀ i < ps.length, extraction.start ≤ i → i ∈ extraction.positions ∨ fixedLevel ps[i]? = true

instance (ps : List (Level (List Char))) (extraction : Extraction) :
    Decidable (extraction.Fits ps) :=
  inferInstanceAs (Decidable (_ ∧ _ ∧ _))

theorem levels_chars {topic l : List Char} (inside : l ∈ levels topic) : ∀ c ∈ l, c ∈ topic := by
  induction topic generalizing l with
  | nil => simp_all
  | cons t topic ih =>
    by_cases sep : t = '/'
    · subst sep
      rw [levels_sep] at inside
      intro c member
      rcases List.mem_cons.mp inside with rfl | later
      · simp at member
      · exact List.mem_cons_of_mem _ (ih later c member)
    · obtain ⟨m, ms, split⟩ := List.exists_cons_of_ne_nil (levels_ne_nil topic)
      rw [levels_char sep split] at inside
      intro c member
      rcases List.mem_cons.mp inside with rfl | later
      · rcases List.mem_cons.mp member with rfl | rest
        · exact List.mem_cons_self
        · exact List.mem_cons_of_mem _ (ih (by simp [split]) c rest)
      · exact List.mem_cons_of_mem _ (ih (by simp [split, later]) c member)

theorem read_level {topic : CStr} {l : List Char} (inside : l ∈ levels topic.chars) :
    (CStr.read l).chars = l := by
  have plain : '\x00' ∉ l := fun nul => topic.noNul (levels_chars inside _ nul)
  exact congrArg CStr.chars (CStr.read_chars ⟨l, plain⟩)

theorem levelAt_empty {topic : CStr} {i : Nat} :
    levelAt topic i = some .empty ↔ (levels topic.chars)[i]? = some [] := by
  unfold levelAt
  cases found : (levels topic.chars)[i]? with
  | none => simp
  | some l =>
    have same := read_level (List.mem_of_getElem? found)
    simp only [Option.map_some, Option.some.injEq]
    constructor
    · intro empty
      rw [← same, empty]
      rfl
    · rintro rfl
      rfl

theorem token_ne_empty {topic : CStr} {i : Nat} : (tokens topic)[i]? ≠ some .empty := by
  intro found
  have inside := List.mem_of_getElem? found
  obtain ⟨l, kept, empty⟩ := List.mem_map.mp inside
  have facts := List.mem_filter.mp kept
  have same := read_level facts.1
  rw [empty] at same
  exact absurd same.symm (of_decide_eq_true facts.2)

/-- Where the levels from the start index on are not empty, the tokens are the levels,
moved by the empty ones before. -/
theorem token_level {topic : CStr} {extraction : Extraction}
    (full : ∀ l ∈ (levels topic.chars).drop extraction.start, l ≠ []) {i : Nat}
    (behind : extraction.start ≤ i) :
    (tokens topic)[i]? = levelAt topic (i + extraction.gaps topic) := by
  obtain ⟨j, rfl⟩ := Nat.exists_eq_add_of_le behind
  have shifted := filter_shift (p := fun l : List Char => decide (l ≠ []))
    (levels topic.chars) (fun l inside => by simpa using full l inside) j
  have gaps : ((levels topic.chars).take extraction.start).countP
      (fun l => !decide (l ≠ [])) = extraction.gaps topic := by
    unfold Extraction.gaps
    congr 1
    funext l
    simp
  rw [gaps] at shifted
  simp only [tokens, levelAt, List.getElem?_map, shifted]

theorem fixedLevel_iff {level : Option (Level (List Char))} :
    fixedLevel level = true ↔ ∃ c rest, level = some (.exact (c :: rest)) := by
  constructor
  · intro fixed
    match level, fixed with
    | some (.exact (c :: rest)), _ => exact ⟨c, rest, rfl⟩
  · rintro ⟨c, rest, rfl⟩
    rfl

theorem start_le {extraction : Extraction} {i : Nat} (wanted : i ∈ extraction.positions) :
    extraction.start ≤ i := by
  cases extraction <;> simp [Extraction.positions, Extraction.start] at * <;> omega

theorem outputs_tokens (topic : CStr) (extraction : Extraction) :
    extraction.outputs topic = extraction.positions.map ((tokens topic)[·]?) := by
  cases extraction <;>
    simp [Extraction.outputs, Extraction.positions, getPkDnFromThingsubTopic, getDataFromTopic]

theorem levels_full {ps : List (Level (List Char))} {extraction : Extraction} {topic : CStr}
    (fits : extraction.Fits ps) (arrived : Matches ps (levels topic.chars)) :
    (∀ i ∈ extraction.positions, levelAt topic i ≠ some .empty) →
      ∀ l ∈ (levels topic.chars).drop extraction.start, l ≠ [] := by
  obtain ⟨single, -, behind⟩ := fits
  intro filled l inside
  obtain ⟨j, found⟩ := List.mem_iff_getElem?.mp inside
  rw [List.getElem?_drop] at found
  have bound : extraction.start + j < ps.length := by
    rw [← arrived.length_eq single]
    exact (List.getElem?_eq_some_iff.mp found).1
  rcases behind _ bound (by omega) with wanted | fixed
  · rintro rfl
    exact filled _ wanted (levelAt_empty.mpr found)
  · obtain ⟨c, rest, exact⟩ := fixedLevel_iff.mp fixed
    rw [arrived.fixed single exact] at found
    obtain rfl := Option.some.inj found
    simp

/-- The tokens are the wanted levels exactly where these are not displaced. -/
theorem tokens_iff {ps : List (Level (List Char))} {extraction : Extraction} {topic : CStr}
    (fits : extraction.Fits ps) (arrived : Matches ps (levels topic.chars)) :
    (∀ i ∈ extraction.positions, (tokens topic)[i]? = levelAt topic i) ↔
      extraction.Undisplaced topic := by
  constructor
  · intro same
    have filled : ∀ i ∈ extraction.positions, levelAt topic i ≠ some .empty := by
      intro i wanted
      rw [← same i wanted]
      exact token_ne_empty
    have full := levels_full fits arrived filled
    intro i wanted
    constructor
    · exact filled i wanted
    · rw [← token_level full (start_le wanted)]
      exact same i wanted
  · intro undisplaced i wanted
    have full := levels_full fits arrived fun i wanted => (undisplaced i wanted).1
    rw [token_level full (start_le wanted)]
    exact (undisplaced i wanted).2

theorem extraction_fits {filter : TopicWildcard} {extraction : Extraction}
    (handled : filter.extraction = some extraction) :
    extraction.Fits (pattern filter.text.chars) := by
  cases filter <;> cases handled <;> rw [TopicWildcard.text, CStr.chars_lit] <;> decide

theorem level_assigned {ps : List (Level (List Char))} {extraction : Extraction} {topic : CStr}
    (fits : extraction.Fits ps) (arrived : Matches ps (levels topic.chars)) {i : Nat}
    (wanted : i ∈ extraction.positions) : (levelAt topic i).isSome = true := by
  obtain ⟨single, wild, -⟩ := fits
  have bound : i < (levels topic.chars).length := by
    rw [arrived.length_eq single]
    exact (List.getElem?_eq_some_iff.mp (wild i wanted)).1
  simp [levelAt, List.getElem?_eq_getElem bound]

/-- An assigned output does not show what the caller had put there. -/
theorem pkDn_found {topic : CStr} {start : Nat} (pk dn : Option CStr)
    (same : ∀ i ∈ (Extraction.pkDn start).positions, (tokens topic)[i]? = levelAt topic i)
    (assigned : ∀ i ∈ (Extraction.pkDn start).positions, (levelAt topic i).isSome = true) :
    getPkDnFromThingsubTopic topic start pk dn = (levelAt topic start, levelAt topic (start + 1)) := by
  obtain ⟨key, first⟩ := Option.isSome_iff_exists.mp (assigned start (by simp [Extraction.positions]))
  obtain ⟨name, second⟩ :=
    Option.isSome_iff_exists.mp (assigned (start + 1) (by simp [Extraction.positions]))
  have atStart := same start (by simp [Extraction.positions])
  have behind := same (start + 1) (by simp [Extraction.positions])
  simp [getPkDnFromThingsubTopic, atStart, behind, first, second]

theorem data_found {topic : CStr} {start : Nat} (data : Option CStr)
    (same : ∀ i ∈ (Extraction.data start).positions, (tokens topic)[i]? = levelAt topic i)
    (assigned : ∀ i ∈ (Extraction.data start).positions, (levelAt topic i).isSome = true) :
    getDataFromTopic topic start data = levelAt topic start := by
  obtain ⟨text, found⟩ := Option.isSome_iff_exists.mp (assigned start (by simp [Extraction.positions]))
  have atStart := same start (by simp [Extraction.positions])
  simp [getDataFromTopic, atStart, found]

theorem device_hands {filter : TopicWildcard} {topic : CStr} {forward : Forwarding}
    {method : EsvThingModelMsgMethod} {start : Nat} {pkDn : Option CStr × Option CStr}
    (payload : List Char) (arrived : topicMatchesWildcard topic filter.text = true)
    (first : branches.find? (·.filter = filter) =
      some (deviceBranch filter forward method start pkDn))
    (same : ∀ i ∈ (Extraction.pkDn start).positions, (tokens topic)[i]? = levelAt topic i)
    (assigned : ∀ i ∈ (Extraction.pkDn start).positions, (levelAt topic i).isSome = true) :
    ∃ handoff, messageArrived5 topic payload = [handoff] ∧
      (Extraction.pkDn start).HandsOn topic handoff := by
  have taken := firstBranch_taken branches (deviceBranch filter forward method start pkDn) payload
    first arrived
  have found := pkDn_found pkDn.1 pkDn.2 same assigned
  rw [messageArrived5_chain, taken]
  exact ⟨_, rfl, congrArg Prod.fst found, congrArg Prod.snd found⟩

theorem hands_on {filter : TopicWildcard} {extraction : Extraction} {topic : CStr}
    (payload : List Char) (handled : filter.extraction = some extraction)
    (arrived : topicMatchesWildcard topic filter.text = true)
    (same : ∀ i ∈ extraction.positions, (tokens topic)[i]? = levelAt topic i)
    (assigned : ∀ i ∈ extraction.positions, (levelAt topic i).isSome = true) :
    ∃ handoff, messageArrived5 topic payload = [handoff] ∧ extraction.HandsOn topic handoff := by
  cases filter with
  | wanThingsubPropertySet | wanThingsubPropertyGet | wanThingsubDiscovery
  | wanThingPluginNodeActionPush | wanThingPluginConfigPush | lanThingsubServicePropertyGet
  | lanThingsubServicePropertySet | lanThingsubEventPropertyPost =>
    obtain rfl := Option.some.inj handled
    exact device_hands payload arrived rfl same assigned
  | appThingPluginConfigPush =>
    obtain rfl := Option.some.inj handled
    rw [messageArrived5_chain, firstBranch_taken branches branches[4] payload rfl arrived]
    simp [branches, data_found none same assigned, Extraction.HandsOn]
  | wanEasyhbesThingPluginNodeConfigPush =>
    obtain rfl := Option.some.inj handled
    rw [messageArrived5_chain, firstBranch_taken branches branches[9] payload rfl arrived]
    simp [branches, data_found (some .empty) same assigned, Extraction.HandsOn]
  | wanThingDiscovery | wanThingsubConfigPush | wanThingRestartSet | lanThingPluginConfigPush
  | appThingPluginReloadConfigPush | lanThingsubServicePropertySetreply
  | lanThingsubServicePropertyGetreply | lanThingServicePropertyPostreq => cases handled

/-- Tokens and levels agree exactly where the wanted levels are not displaced. -/
theorem extractsWildcards_iff (filter : TopicWildcard) (extraction : Extraction) (topic : CStr)
    (payload : List Char) (handled : filter.extraction = some extraction)
    (arrived : topicMatchesWildcard topic filter.text = true) :
    ExtractsWildcards extraction topic payload ↔ extraction.Undisplaced topic := by
  have fits := extraction_fits handled
  have matched : LevelMatch topic filter.text := (matches_text filter topic).mp arrived
  have assigned := fun i wanted => level_assigned (i := i) fits matched wanted
  rw [← tokens_iff fits matched]
  constructor
  · rintro ⟨-, outputs, -⟩
    rw [outputs_tokens] at outputs
    exact List.map_inj_left.mp outputs
  · intro same
    have outputs : extraction.outputs topic = extraction.positions.map (levelAt topic) := by
      rw [outputs_tokens]
      exact List.map_inj_left.mpr same
    refine ⟨?_, outputs, hands_on payload handled arrived same assigned⟩
    intro output inside
    rw [outputs] at inside
    obtain ⟨i, wanted, rfl⟩ := List.mem_map.mp inside
    exact assigned i wanted

theorem extractsWildcards_iff_lamp :
    ExtractsWildcards (.pkDn 3) (.lit "lan/thing/sub/lamp/one/thing/service/property/get") [] ↔
      (Extraction.pkDn 3).Undisplaced
        (.lit "lan/thing/sub/lamp/one/thing/service/property/get") :=
  extractsWildcards_iff lanThingsubServicePropertyGet (.pkDn 3) _ [] rfl (by decide +kernel)

/-- An empty level before the device moves both results, and the second token is the fixed
level behind the device. -/
theorem extractsWildcards_gap :
    topicMatchesWildcard (.lit "wan//gw/thing/sub/lamp/one/thing/service/property/set")
        wanThingsubPropertySet.text = true ∧
      ¬ ExtractsWildcards (.pkDn 5)
        (.lit "wan//gw/thing/sub/lamp/one/thing/service/property/set") [] := by
  constructor
  · decide +kernel
  · rintro ⟨-, outputs, -⟩
    exact absurd outputs (by decide +kernel)

end Cpm.Mqtt
