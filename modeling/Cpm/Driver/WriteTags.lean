import Cpm.Driver.Answer

/-! A request to write several tags is queued as a whole or answered with an error. -/
namespace Cpm

open Lib

def Writable (group : NeuGroup) (name : CStr) (tag : NeuDatatag) : Prop :=
  neuGroupFindTag group name = some tag ∧ neuTagAttributeTest tag NEU_ATTRIBUTE_WRITE = true ∧
    neuTagAttributeTest tag NEU_ATTRIBUTE_STATIC = false

def DriverEvent.answer : DriverEvent → Option (Nat × Int)
  | .response req error => some (req, error)
  | _ => none

def responses (driver : NeuAdapterDriver) : List (Nat × Int) :=
  driver.events.filterMap DriverEvent.answer

def Holds (fl : FloatOps) (group : NeuGroup) (cmd : CStr × NeuDvalue) (tv : NeuPluginTagValue) :
    Prop :=
  Writable group cmd.1 tv.tag ∧ ∃ fixed, tv.value = fixed.value ∧
    fixValue fl tv.tag cmd.2.type (calTagDecimal fl tv.tag cmd.2) = some fixed

/-- The queue of the group has one more entry, with a value for each tag, and nothing is answered. -/
def QueuedWhole (fl : FloatOps) (driver : NeuAdapterDriver) (req : Nat)
    (group : CStr) (tags : List (CStr × NeuDvalue)) (driver' : NeuAdapterDriver) : Prop :=
  ∃ g tvs, findGroup driver group = some g ∧ List.Forall₂ (Holds fl g.group) tags tvs ∧
    driver'.groups = driver.groups.insert group { g with wtTags := g.wtTags ++ [.batch req tvs] } ∧
    responses driver' = responses driver

/-- Why a request is refused, with the error that says so. -/
inductive Refusal (driver : NeuAdapterDriver) (group : CStr) (tags : List (CStr × NeuDvalue)) :
    Int → Prop
  | notRunning : driver.adapter.state ≠ .running →
      Refusal driver group tags NEU_ERR_PLUGIN_NOT_RUNNING
  | notSupported : driver.intfFuns.writeTags = false →
      Refusal driver group tags NEU_ERR_PLUGIN_NOT_SUPPORT_WRITE_TAGS
  | noGroup : findGroup driver group = none → Refusal driver group tags NEU_ERR_GROUP_NOT_EXIST
  | tag {g : GroupT} {cmd : CStr × NeuDvalue} : findGroup driver group = some g → cmd ∈ tags →
      (∀ tag, ¬ Writable g.group cmd.1 tag) → Refusal driver group tags NEU_ERR_TAG_NOT_EXIST

/-- No queue has changed, and the request is answered once, with an error. -/
def RefusedWhole (driver : NeuAdapterDriver) (req : Nat) (group : CStr)
    (tags : List (CStr × NeuDvalue)) (driver' : NeuAdapterDriver) : Prop :=
  ∃ error, error ≠ NEU_ERR_SUCCESS ∧ Refusal driver group tags error ∧
    driver'.groups = driver.groups ∧ responses driver' = responses driver ++ [(req, error)]

def AllOrNothing (fl : FloatOps) (driver : NeuAdapterDriver) (req : Nat) (group : CStr)
    (tags : List (CStr × NeuDvalue)) (ended : Option NeuAdapterDriver) : Prop :=
  ∃ driver', ended = some driver' ∧ (QueuedWhole fl driver req group tags driver' ∨
    RefusedWhole driver req group tags driver')

/-- The assertion of `fix_value` is not reached with a tag that it fails for. -/
def Fixable (driver : NeuAdapterDriver) (group : CStr) (tags : List (CStr × NeuDvalue)) : Prop :=
  driver.adapter.state = .running → driver.intfFuns.writeTags = true →
    ∀ g, findGroup driver group = some g → ∀ cmd ∈ tags, ∀ tag, Writable g.group cmd.1 tag →
      Orderable tag

section
variable {fl : FloatOps} {group : NeuGroup} {cmd : CStr × NeuDvalue}

/-- One tag of the request: its value, none for a tag that is left out, or the assertion. -/
theorem pluginTagValue_cases (fl : FloatOps) (group : NeuGroup) (cmd : CStr × NeuDvalue) :
    (pluginTagValue fl group cmd = some none ∧ ∀ tag, ¬ Writable group cmd.1 tag) ∨
      ∃ tag, Writable group cmd.1 tag ∧ pluginTagValue fl group cmd =
        (fixValue fl tag cmd.2.type (calTagDecimal fl tag cmd.2)).map
          fun fixed => some ⟨tag, fixed.value⟩ := by
  unfold pluginTagValue Writable
  split
  · next absent => exact .inl ⟨rfl, fun tag found => by simp [absent] at found⟩
  · next tag found =>
    split
    · next attributes =>
      simp only [Bool.and_eq_true, Bool.not_eq_true'] at attributes
      exact .inr ⟨tag, ⟨found, attributes⟩, rfl⟩
    · next attributes =>
      simp only [Bool.and_eq_true, Bool.not_eq_true'] at attributes
      refine .inl ⟨rfl, fun tag' here => ?_⟩
      rw [found] at here
      cases here.1
      exact attributes here.2

theorem writable_unique {name : CStr} {tag tag' : NeuDatatag} (here : Writable group name tag)
    (here' : Writable group name tag') : tag = tag' :=
  Option.some.inj (here.1.symm.trans here'.1)

theorem pluginTagValue_some_iff : (∃ tv, pluginTagValue fl group cmd = some tv) ↔
    ∀ tag, Writable group cmd.1 tag → Orderable tag := by
  obtain ⟨left, nowhere⟩ | ⟨tag, writable, same⟩ := pluginTagValue_cases fl group cmd
  · exact ⟨fun _ tag here => absurd here (nowhere tag), fun _ => ⟨none, left⟩⟩
  · have fixes := fixValue_some_iff fl tag cmd.2.type (calTagDecimal fl tag cmd.2)
    rw [same]
    constructor
    · rintro ⟨tv, done⟩ tag' here
      obtain ⟨fixed, done, _⟩ := Option.map_eq_some_iff.1 done
      rw [← writable_unique writable here]
      exact fixes.1 ⟨fixed, done⟩
    · intro orderable
      obtain ⟨fixed, done⟩ := fixes.2 (orderable tag writable)
      exact ⟨_, by rw [done]; rfl⟩

/-- The loop over the tags: it ends unless one fails, and what it collects is as long as the list
exactly if no tag is left out. -/
theorem pluginTagValues_cases {tags : List (CStr × NeuDvalue)}
    {values : List (Option NeuPluginTagValue)}
    (ran : tags.mapM (pluginTagValue fl group) = some values) :
    List.Forall₂ (Holds fl group) tags (values.filterMap id) ∨
      ((values.filterMap id).length < tags.length ∧
        ∃ cmd ∈ tags, ∀ tag, ¬ Writable group cmd.1 tag) := by
  induction tags generalizing values with
  | nil =>
    cases ran
    exact .inl .nil
  | cons cmd rest ih =>
    rw [List.mapM_cons] at ran
    obtain ⟨first, here, ran⟩ := Option.bind_eq_some_iff.1 ran
    obtain ⟨others, further, ran⟩ := Option.bind_eq_some_iff.1 ran
    cases ran
    have short : (others.filterMap id).length ≤ rest.length := by
      obtain each | ⟨fewer, _⟩ := ih further
      · exact Nat.le_of_eq each.length_eq.symm
      · exact Nat.le_of_lt fewer
    obtain ⟨left, nowhere⟩ | ⟨tag, writable, same⟩ := pluginTagValue_cases fl group cmd
    · cases left.symm.trans here
      refine .inr ⟨?_, cmd, List.mem_cons_self, nowhere⟩
      rw [List.filterMap_cons_none rfl, List.length_cons]
      omega
    · rw [same] at here
      obtain ⟨fixed, done, rfl⟩ := Option.map_eq_some_iff.1 here
      have head : List.filterMap id (some ⟨tag, fixed.value⟩ :: others) =
          (⟨tag, fixed.value⟩ : NeuPluginTagValue) :: others.filterMap id :=
        List.filterMap_cons_some rfl
      rw [head]
      obtain each | ⟨fewer, cmd', inside, nowhere⟩ := ih further
      · exact .inl (.cons ⟨writable, fixed, rfl, done⟩ each)
      · refine .inr ⟨?_, cmd', List.mem_cons_of_mem _ inside, nowhere⟩
        rw [List.length_cons, List.length_cons]
        omega

theorem response_answered (driver : NeuAdapterDriver) (req : Nat) (error : Int) :
    responses (respond driver req error) = responses driver ++ [(req, error)] := by
  simp [responses, respond, NeuAdapterDriver.record, DriverEvent.answer]

theorem stored_unanswered (driver : NeuAdapterDriver) (name : CStr) (g : GroupT)
    (wtag : ToBeWriteTag) : responses (storeWriteTag driver name g wtag) = responses driver := by
  simp [responses, storeWriteTag, NeuAdapterDriver.record, NeuAdapterDriver.setGroup,
    DriverEvent.answer]

end

theorem writeTags_all_or_nothing_iff (fl : FloatOps) (driver : NeuAdapterDriver) (req : Nat)
    (group : CStr) (tags : List (CStr × NeuDvalue)) :
    AllOrNothing fl driver req group tags (neuAdapterDriverWriteTags fl driver req group tags) ↔
      Fixable driver group tags := by
  have refused {error : Int} (failed : error ≠ NEU_ERR_SUCCESS)
      (because : Refusal driver group tags error) :
      AllOrNothing fl driver req group tags (some (respond driver req error)) :=
    ⟨_, rfl, .inr ⟨error, failed, because, rfl, response_answered driver req error⟩⟩
  unfold neuAdapterDriverWriteTags
  split
  · next stopped =>
    exact ⟨fun _ running => absurd running stopped,
      fun _ => refused (by decide) (.notRunning stopped)⟩
  next running =>
  split
  · next unsupported =>
    refine ⟨fun _ _ supported => ?_, fun _ => refused (by decide) (.notSupported unsupported)⟩
    rw [unsupported] at supported
    cases supported
  next supported =>
  split
  · next absent =>
    refine ⟨fun _ _ _ g found => ?_, fun _ => refused (by decide) (.noGroup absent)⟩
    rw [absent] at found
    cases found
  next g found =>
  have fixable : Fixable driver group tags ↔
      ∀ cmd ∈ tags, ∃ tv, pluginTagValue fl g.group cmd = some tv := by
    simp only [pluginTagValue_some_iff]
    refine ⟨fun all => all (not_not.1 running) (by simpa using supported) g found, ?_⟩
    intro all _ _ g' here
    cases found.symm.trans here
    exact all
  rw [fixable]
  constructor
  · rintro ⟨driver', ended, _⟩
    obtain ⟨values, ran, _⟩ := Option.bind_eq_some_iff.1 ended
    exact fun cmd inside => Decode.mapM_defined ran inside
  · intro each
    obtain ⟨values, ran⟩ := Decode.mapM_total each
    simp only [ran, Option.bind_eq_bind, Option.bind_some]
    obtain all | ⟨fewer, cmd, inside, nowhere⟩ := pluginTagValues_cases ran
    · rw [if_neg (not_not.2 all.length_eq.symm)]
      exact ⟨_, rfl, .inl ⟨g, _, found, all, rfl, stored_unanswered driver group g _⟩⟩
    · rw [if_pos (Nat.ne_of_lt fewer)]
      exact refused (by decide) (.tag found inside nowhere)

def batchDriver : NeuAdapterDriver :=
  neuAdapterDriverCreate ⟨.lit "node", none, .running, .driver⟩ ⟨false, false, true⟩

def withTag (tag : NeuDatatag) : NeuAdapterDriver :=
  (neuReqAddTag accepting (neuReqAddGroup batchDriver groupA 1000).1 groupA [tag] fun _ => 5).1

def writeError : NeuDatatag := { writeTemp.tag with type := .error }

/-- A tag of type ERROR that can be written ends the process. -/
theorem writeTags_asserts : ¬ AllOrNothing noFloats (withTag writeError) 1 groupA
    [(.lit "temp", int7.value)] (neuAdapterDriverWriteTags noFloats (withTag writeError) 1 groupA
      [(.lit "temp", int7.value)]) := by
  rintro ⟨driver', ended, _⟩
  have failed : (neuAdapterDriverWriteTags noFloats (withTag writeError) 1 groupA
      [(.lit "temp", int7.value)]).isNone = true := by decide +kernel
  rw [ended] at failed
  cases failed

end Cpm
