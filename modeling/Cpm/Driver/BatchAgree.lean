import Cpm.Driver.WriteTags

/-! Which values a request for several tags queues, against the requests for one tag each. -/
namespace Cpm

open Lib Lib.Decode

def lastQueued (group : CStr) (driver : NeuAdapterDriver) : Option ToBeWriteTag :=
  (findGroup driver group).bind fun g => g.wtTags.getLast?

def ToBeWriteTag.values : ToBeWriteTag → List ValueU
  | .single _ _ value => [value]
  | .batch _ tvs => tvs.map NeuPluginTagValue.value

def queuedAlone (fl : FloatOps) (driver : NeuAdapterDriver) (req : Nat) (group : CStr)
    (timestamp now : Int) (cmd : CStr × NeuDvalue) : Option (List ValueU) :=
  (neuAdapterDriverWriteTag fl driver req group cmd.1 cmd.2 timestamp now).bind fun driver' =>
    (lastQueued group driver').map ToBeWriteTag.values

def queuedTogether (fl : FloatOps) (driver : NeuAdapterDriver) (req : Nat) (group : CStr)
    (tags : List (CStr × NeuDvalue)) : Option (List ValueU) :=
  (neuAdapterDriverWriteTags fl driver req group tags).bind fun driver' =>
    (lastQueued group driver').map ToBeWriteTag.values

/-- A request for tags of the group that can all be written. -/
structure Accepts (driver : NeuAdapterDriver) (group : CStr) (g : GroupT)
    (tags : List (CStr × NeuDvalue)) : Prop where
  running : driver.adapter.state = .running
  supported : driver.intfFuns.writeTags = true
  found : findGroup driver group = some g
  writable : ∀ cmd ∈ tags, ∃ tag, Writable g.group cmd.1 tag

/-- The request for all tags queues, in order, what requests for each of them queue. -/
def BatchAgrees (fl : FloatOps) (driver : NeuAdapterDriver) (req : Nat) (group : CStr)
    (tags : List (CStr × NeuDvalue)) (timestamp now : Int) : Prop :=
  queuedTogether fl driver req group tags =
    (tags.mapM (queuedAlone fl driver req group timestamp now)).map List.flatten

def IntForFloat (group : NeuGroup) (cmd : CStr × NeuDvalue) : Prop :=
  ∃ tag, Writable group cmd.1 tag ∧ (tag.type = .float ∨ tag.type = .double) ∧ cmd.2.type = .int64

def valueAlone (fl : FloatOps) (tag : NeuDatatag) (value : NeuDvalue) : Option ValueU :=
  (fixValue fl tag value.type (calTagDecimal fl tag (intToDouble fl tag value))).map NeuDvalue.value

def valueTogether (fl : FloatOps) (tag : NeuDatatag) (value : NeuDvalue) : Option ValueU :=
  (fixValue fl tag value.type (calTagDecimal fl tag value)).map NeuDvalue.value

def valueOf (value : NeuDatatag → NeuDvalue → Option ValueU) (group : NeuGroup)
    (cmd : CStr × NeuDvalue) : Option ValueU :=
  (neuGroupFindTag group cmd.1).bind fun tag => value tag cmd.2

section
variable {fl : FloatOps} {driver : NeuAdapterDriver} {group : CStr} {g : GroupT}
  {tags : List (CStr × NeuDvalue)} {tag : NeuDatatag} {cmd : CStr × NeuDvalue}

theorem valueOf_writable {value : NeuDatatag → NeuDvalue → Option ValueU}
    (writable : Writable g.group cmd.1 tag) : valueOf value g.group cmd = value tag cmd.2 := by
  rw [valueOf, writable.1, Option.bind_some]

theorem store_lastQueued (driver : NeuAdapterDriver) (group : CStr) (g : GroupT)
    (wtag : ToBeWriteTag) : lastQueued group (storeWriteTag driver group g wtag) = some wtag := by
  have stored : findGroup (storeWriteTag driver group g wtag) group =
      some { g with wtTags := g.wtTags ++ [wtag] } :=
    (findGroup_setGroup driver group group _).trans (if_pos rfl)
  rw [lastQueued, stored, Option.bind_some, List.getLast?_concat]

theorem queuedAlone_value (accepts : Accepts driver group g tags) (inside : cmd ∈ tags) (req : Nat)
    (timestamp now : Int) : queuedAlone fl driver req group timestamp now cmd =
      (valueOf (valueAlone fl) g.group cmd).map fun value => [value] := by
  obtain ⟨tag, writable⟩ := accepts.writable cmd inside
  rw [valueOf_writable writable]
  obtain ⟨tagged, write, moving⟩ := writable
  simp only [queuedAlone, neuAdapterDriverWriteTag, accepts.running, accepts.found, tagged, write,
    moving, ne_eq, not_true_eq_false, if_false, if_true, Bool.false_eq_true, valueAlone]
  cases fixValue fl tag cmd.2.type (calTagDecimal fl tag (intToDouble fl tag cmd.2)) with
  | none => rfl
  | some fixed =>
    simp only [Option.bind_eq_bind, Option.bind_some, store_lastQueued]
    rfl

theorem queuedTogether_values (accepts : Accepts driver group g tags) (req : Nat) :
    queuedTogether fl driver req group tags = tags.mapM (valueOf (valueTogether fl) g.group) := by
  obtain ⟨running, supported, found, writable⟩ := accepts
  simp only [queuedTogether, neuAdapterDriverWriteTags, running, supported, found, ne_eq,
    not_true_eq_false, if_false, Bool.true_eq_false]
  cases ran : tags.mapM (pluginTagValue fl g.group) with
  | none =>
    obtain ⟨cmd, inside, failed⟩ : ∃ cmd ∈ tags, ¬ ∃ tv, pluginTagValue fl g.group cmd = some tv := by
      by_contra all
      obtain ⟨values, ended⟩ := mapM_total fun cmd inside =>
        not_not.1 fun failed => all ⟨cmd, inside, failed⟩
      cases ran.symm.trans ended
    obtain ⟨tag, here⟩ := writable cmd inside
    refine (mapM_none inside ?_).symm
    rw [valueOf_writable here, valueTogether, Option.map_eq_none_iff, Option.eq_none_iff_forall_ne_some]
    intro fixed done
    refine failed (pluginTagValue_some_iff.2 fun tag' here' => ?_)
    rw [← writable_unique here here']
    exact (fixValue_some_iff fl tag _ _).1 ⟨fixed, done⟩
  | some values =>
    obtain each | ⟨_, cmd, inside, nowhere⟩ := pluginTagValues_cases ran
    · have same : tags.map (valueOf (valueTogether fl) g.group) =
          ((values.filterMap id).map NeuPluginTagValue.value).map some := by
        rw [List.map_map, ← List.forall₂_eq_eq_eq, List.forall₂_map_left_iff,
          List.forall₂_map_right_iff]
        refine each.imp fun cmd tv holds => ?_
        obtain ⟨here, fixed, value, done⟩ := holds
        rw [valueOf_writable here, valueTogether, done, Option.map_some, Function.comp, value]
      simp only [Option.bind_eq_bind, Option.bind_some, if_neg (not_not.2 each.length_eq.symm),
        Option.pure_def, store_lastQueued]
      exact (mapM_eq_some_iff.2 same).symm
    · obtain ⟨tag, here⟩ := writable cmd inside
      exact absurd here (nowhere tag)

theorem batchAgrees_values (accepts : Accepts driver group g tags) (req : Nat)
    (timestamp now : Int) : BatchAgrees fl driver req group tags timestamp now ↔
      tags.mapM (valueOf (valueTogether fl) g.group) =
        tags.mapM (valueOf (valueAlone fl) g.group) := by
  have alone : tags.mapM (queuedAlone fl driver req group timestamp now) = tags.mapM fun cmd =>
      (valueOf (valueAlone fl) g.group cmd).map fun value => [value] :=
    mapM_congr fun cmd inside => queuedAlone_value accepts inside req timestamp now
  rw [BatchAgrees, queuedTogether_values accepts, alone, mapM_flatten]

theorem valueOf_same (writable : Writable g.group cmd.1 tag) (plain : ¬ IntForFloat g.group cmd) :
    valueOf (valueTogether fl) g.group cmd = valueOf (valueAlone fl) g.group cmd := by
  have unconverted : ¬ ((tag.type = .float ∨ tag.type = .double) ∧ cmd.2.type = .int64) :=
    fun converts => plain ⟨tag, writable, converts⟩
  rw [valueOf_writable writable, valueOf_writable writable, valueTogether, valueAlone, intToDouble,
    if_neg unconverted]

end

def markingFloats (bits : Nat) : FloatOps where
  band := exactBand
  ofInt _ := bits + 1
  ofFloat := id
  toFloat x := if x = bits then 0 else 1
  toU64 := id
  round := id
  mul x _ := x
  div x _ := x

/-- Scaling by such arithmetic keeps a double. -/
theorem scaled_marked (bits : Nat) {tag : NeuDatatag} {value : NeuDvalue}
    (floating : tag.type = .float ∨ tag.type = .double) (integer : value.type = .int64) :
    calTagDecimal (markingFloats bits) tag value = value := by
  have kept : value.value.setFront 8 value.value.d64 = value.value := ValueU.setFront_self _ 8
  have divided : calDecimal (markingFloats bits) tag.type value.type value.value tag.decimal =
      value.value := by
    obtain type | type := floating
    all_goals
      simp only [calDecimal, type, integer, markingFloats, true_or, if_true]
      exact kept
  rw [calTagDecimal, divided, ite_self]

/-- Doubles that such arithmetic tells apart stay different. -/
theorem fixValue_marked {bits : Nat} {tag : NeuDatatag} {value value' : NeuDvalue}
    (floating : tag.type = .float ∨ tag.type = .double) (type : value.type = .int64)
    (same : value.value.d64 = bits) (other : value'.value.d64 ≠ bits) :
    (fixValue (markingFloats bits) tag value.type value).map NeuDvalue.value ≠
      (fixValue (markingFloats bits) tag value.type value').map NeuDvalue.value := by
  intro equal
  obtain float | double := floating
  · simp only [fixValue, float, type, reduceCtorEq, if_false, Option.map_some, markingFloats, same,
      other, if_true, Option.some.injEq] at equal
    have unswapped := congrArg (swap32 · tag.option.endian) equal
    simp only [swap32_swap32] at unswapped
    have front := congrArg (ValueU.unsigned · 4) unswapped
    simp only [ValueU.setFront_unsigned _ _ (by decide : 0 + 4 ≤ 136)] at front
    cases front
  · simp only [fixValue, double, Option.map_some, Option.some.injEq] at equal
    split at equal
    · have unswapped := congrArg (Block.swapAt · 0 8) equal
      simp only [Block.swapAt_swapAt _ (by decide : 0 + 8 ≤ 136)] at unswapped
      exact other (unswapped ▸ same)
    · exact other (equal ▸ same)

theorem valueOf_differs {group : NeuGroup} {cmd : CStr × NeuDvalue} (int : IntForFloat group cmd) :
    ∃ fl, valueOf (valueTogether fl) group cmd ≠ valueOf (valueAlone fl) group cmd := by
  obtain ⟨tag, ⟨found, _⟩, floating, integer⟩ := int
  let bits := cmd.2.value.d64
  let converted := intToDouble (markingFloats bits) tag cmd.2
  have type : converted.type = cmd.2.type := (intToDouble_plain _ tag cmd.2).1
  have other : converted.value.d64 ≠ bits := by
    have small : bits < 256 ^ 8 := ValueU.unsigned_lt cmd.2.value 8
    have next : converted.value.d64 = (bits + 1) % 256 ^ 8 := by
      have stored : converted.value = cmd.2.value.setFront 8 (bits + 1) := by
        simp only [converted, intToDouble, floating, integer, and_self, if_true, markingFloats]
      rw [stored]
      exact ValueU.setFront_unsigned _ _ (by decide)
    rw [next]
    omega
  refine ⟨markingFloats bits, ?_⟩
  rw [valueOf, valueOf, found, Option.bind_some, Option.bind_some, valueTogether, valueAlone,
    scaled_marked bits floating integer, scaled_marked bits floating (type.trans integer)]
  exact fixValue_marked floating integer rfl other

/-- Under any arithmetic the two kinds of request agree unless an integer goes to a floating tag.
A tag that fails the assertion of `fix_value` ends both. -/
theorem batch_agrees_iff {driver : NeuAdapterDriver} {group : CStr} {g : GroupT}
    {tags : List (CStr × NeuDvalue)} (accepts : Accepts driver group g tags) (req : Nat)
    (timestamp now : Int) : (∀ fl, BatchAgrees fl driver req group tags timestamp now) ↔
      (∃ cmd ∈ tags, ∃ tag, Writable g.group cmd.1 tag ∧ ¬ Orderable tag) ∨
        ∀ cmd ∈ tags, ¬ IntForFloat g.group cmd := by
  simp only [batchAgrees_values accepts]
  constructor
  · intro agrees
    by_contra neither
    obtain ⟨fixable, converting⟩ := not_or.1 neither
    obtain ⟨cmd, inside, int⟩ : ∃ cmd ∈ tags, IntForFloat g.group cmd := by
      simpa using converting
    obtain ⟨fl, differs⟩ := valueOf_differs int
    have total : ∀ cmd ∈ tags, ∃ value, valueOf (valueTogether fl) g.group cmd = some value := by
      intro cmd inside
      obtain ⟨tag, here⟩ := accepts.writable cmd inside
      have orderable : Orderable tag := not_not.1 fun not => fixable ⟨cmd, inside, tag, here, not⟩
      obtain ⟨fixed, done⟩ := fixValue_total fl tag cmd.2.type (calTagDecimal fl tag cmd.2) orderable
      exact ⟨fixed.value, by rw [valueOf_writable here, valueTogether, done, Option.map_some]⟩
    obtain ⟨values, ran⟩ := mapM_total total
    exact differs (mapM_agree ran ((agrees fl).symm.trans ran) cmd inside)
  · rintro (⟨cmd, inside, tag, here, failing⟩ | plain) fl
    · have fails (value : NeuDvalue) :
          (fixValue fl tag cmd.2.type value).map NeuDvalue.value = none := by
        rw [Option.map_eq_none_iff, Option.eq_none_iff_forall_ne_some]
        exact fun fixed done => failing ((fixValue_some_iff fl tag _ _).1 ⟨fixed, done⟩)
      rw [mapM_none inside ((valueOf_writable here).trans (fails _)),
        mapM_none inside ((valueOf_writable here).trans (fails _))]
    · refine mapM_congr fun cmd inside => ?_
      obtain ⟨tag, here⟩ := accepts.writable cmd inside
      exact valueOf_same here (plain cmd inside)

def twoTags : NeuAdapterDriver :=
  (neuReqAddTag accepting (withTag writeTemp.tag) groupA
    [{ writeTemp.tag with name := .lit "level", type := .float }] fun _ => 5).1

def twoCmds : List (CStr × NeuDvalue) :=
  [(.lit "temp", int7.value),
    (.lit "level", ⟨.double, Block.zero.overlay 0 (Block.leBlock 8 0x3ff8000000000000), 0⟩)]

theorem batch_agrees_temp : ∃ g, findGroup twoTags groupA = some g ∧
    ((∀ fl, BatchAgrees fl twoTags 1 groupA twoCmds 0 0) ↔
      (∃ cmd ∈ twoCmds, ∃ tag, Writable g.group cmd.1 tag ∧ ¬ Orderable tag) ∨
        ∀ cmd ∈ twoCmds, ¬ IntForFloat g.group cmd) := by
  have there : ∀ cmd ∈ twoCmds, ((findGroup twoTags groupA).bind fun g =>
      (neuGroupFindTag g.group cmd.1).map fun tag =>
        (neuTagAttributeTest tag NEU_ATTRIBUTE_WRITE, neuTagAttributeTest tag NEU_ATTRIBUTE_STATIC)) =
      some (true, false) := by decide +kernel
  obtain ⟨g, found, -⟩ := Option.bind_eq_some_iff.1 (there _ List.mem_cons_self)
  refine ⟨g, found, batch_agrees_iff ⟨by decide +kernel, by decide +kernel, found, ?_⟩ 1 0 0⟩
  intro cmd inside
  obtain ⟨g', found', tagged⟩ := Option.bind_eq_some_iff.1 (there cmd inside)
  cases found.symm.trans found'
  obtain ⟨tag, named, attributes⟩ := Option.map_eq_some_iff.1 tagged
  injection attributes with write moving
  exact ⟨tag, named, write, moving⟩

/-- What IEEE arithmetic makes of 1, and of the double with the bits of 1. -/
def oneFloats : FloatOps :=
  { noFloats with
    ofInt := fun n => if n = 1 then 0x3ff0000000000000 else 0
    toFloat := fun x => if x = 0x3ff0000000000000 then 0x3f800000 else 0 }

def int1 : NeuDvalue := ⟨.int64, .ofU32 1, 0⟩

/-- The integer 1 for a FLOAT tag goes out as 1 alone and as 0 in a request for several. -/
theorem batch_writes_zero : ¬ ∀ fl, BatchAgrees fl (withTag { writeTemp.tag with type := .float }) 1
    groupA [(.lit "temp", int1)] 0 0 := by
  intro agrees
  have differ : (queuedTogether oneFloats (withTag { writeTemp.tag with type := .float }) 1 groupA
      [(.lit "temp", int1)]).map (List.map ValueU.f32) ≠
      (([(CStr.lit "temp", int1)].mapM (queuedAlone oneFloats
        (withTag { writeTemp.tag with type := .float }) 1 groupA 0 0)).map List.flatten).map
          (List.map ValueU.f32) := by decide +kernel
  exact differ (congrArg (Option.map (List.map ValueU.f32)) (agrees oneFloats))

end Cpm
