import Cpm.Base.Elements

/-! The elements that requests about tags begin with, the same in each of their decoders: texts for
the node and the group, and the array of tags. -/
namespace Cpm

open Lib

def requestElems : List NeuJsonElem :=
  [required "node" .str, required "group" .str, required "tags" .object]

/-- The document is refused for what it lacks, or for its tags. -/
def RefusedAtOnce (json : Json) (refused : List Json → Prop) : Prop :=
  jsonObjectGet (some json) "node" = none ∨
    (∃ node, jsonObjectGet (some json) "node" = some (.string node)) ∧
      (jsonObjectGet (some json) "group" = none ∨
        (∃ group, jsonObjectGet (some json) "group" = some (.string group)) ∧
          ∀ items, jsonObjectGet (some json) "tags" = some (.array items) → refused items)

structure Request (json : Json) (node group : CStr) (tags : Json) : Prop where
  node : jsonObjectGet (some json) "node" = some (.string node)
  group : jsonObjectGet (some json) "group" = some (.string group)
  tags : jsonObjectGet (some json) "tags" = some tags

section
variable {casts : CastOps} {json tags tags' : Json} {node group node' group' : CStr}
  {refused : List Json → Prop}

theorem Request.same (request : Request json node group tags)
    (request' : Request json node' group' tags') : node = node' ∧ group = group' ∧ tags = tags' := by
  refine ⟨?_, ?_, ?_⟩
  · exact Json.string.inj (Option.some.inj (request.node.symm.trans request'.node))
  · exact Json.string.inj (Option.some.inj (request.group.symm.trans request'.group))
  · exact Option.some.inj (request.tags.symm.trans request'.tags)

theorem decodeRequest (casts : CastOps) (json : Json) :
    neuJsonDecodeByJson casts (some json) requestElems =
      (do
        let node ← decodeObject casts json (required "node" .str)
        let group ← decodeObject casts json (required "group" .str)
        let tags ← decodeObject casts json (required "tags" .object)
        pure [node, group, tags]) := by
  simp only [neuJsonDecodeByJson, requestElems, List.mapM_cons, List.mapM_nil, pure_bind, bind_assoc]

theorem decodeRequest_ok (request : Request json node group tags) :
    neuJsonDecodeByJson casts (some json) requestElems =
      .ok [some (.str node), some (.str group), some (.object tags)] := by
  rw [decodeRequest, decodeObject_str, decodeObject_str, decodeObject_there, request.node,
    request.group, request.tags]
  rfl

def GivesArray (json : Json) : Prop :=
  ∃ node group items, Request json node group (.array items)

inductive RequestEnds (casts : CastOps) (json : Json) : Prop
  | lacking (ran : neuJsonDecodeByJson casts (some json) requestElems = .error .failed)
      (nothing : ¬ ∃ node group tags, Request json node group tags)
      (atOnce : ∀ refused, RefusedAtOnce json refused)
  | textless (ran : neuJsonDecodeByJson casts (some json) requestElems = .error .crashed)
      (nothing : ¬ ∃ node group tags, Request json node group tags)
      (accepted : ∀ refused, ¬ RefusedAtOnce json refused)
  | given (node group : CStr) (tags : Json) (request : Request json node group tags)

theorem request_ends (casts : CastOps) (json : Json) : RequestEnds casts json := by
  have elems := decodeRequest casts json
  rw [decodeObject_str, decodeObject_str, decodeObject_there] at elems
  by_cases nodeText : ∃ node, jsonObjectGet (some json) "node" = some (.string node)
  · obtain ⟨node, nodeIs⟩ := nodeText
    rw [nodeIs] at elems
    by_cases groupText : ∃ group, jsonObjectGet (some json) "group" = some (.string group)
    · obtain ⟨group, groupIs⟩ := groupText
      rw [groupIs] at elems
      cases tagsAre : jsonObjectGet (some json) "tags" with
      | none =>
        rw [tagsAre] at elems
        refine .lacking elems ?_ fun refused => .inr ⟨⟨node, nodeIs⟩, .inr ⟨⟨group, groupIs⟩, ?_⟩⟩
        · rintro ⟨_, _, _, request⟩
          cases tagsAre.symm.trans request.tags
        · intro items there
          cases tagsAre.symm.trans there
      | some tags => exact .given node group tags ⟨nodeIs, groupIs, tagsAre⟩
    · have nothing : ¬ ∃ node group tags, Request json node group tags :=
        fun ⟨_, group, _, request⟩ => groupText ⟨group, request.group⟩
      cases groupIs : jsonObjectGet (some json) "group" with
      | none =>
        rw [groupIs] at elems
        exact .lacking elems nothing fun refused => .inr ⟨⟨node, nodeIs⟩, .inl groupIs⟩
      | some ob =>
        have stopped : neuJsonDecodeByJson casts (some json) requestElems = .error .crashed := by
          rw [elems, groupIs]
          cases ob with
          | string group => exact absurd ⟨group, groupIs⟩ groupText
          | _ => rfl
        refine .textless stopped nothing fun refused => ?_
        rintro (absent | ⟨_, absent | ⟨text, _⟩⟩)
        · cases nodeIs.symm.trans absent
        · cases groupIs.symm.trans absent
        · exact groupText text
  · have nothing : ¬ ∃ node group tags, Request json node group tags :=
      fun ⟨node, _, _, request⟩ => nodeText ⟨node, request.node⟩
    cases nodeIs : jsonObjectGet (some json) "node" with
    | none =>
      rw [nodeIs] at elems
      exact .lacking elems nothing fun refused => .inl nodeIs
    | some ob =>
      have stopped : neuJsonDecodeByJson casts (some json) requestElems = .error .crashed := by
        rw [elems, nodeIs]
        cases ob with
        | string node => exact absurd ⟨node, nodeIs⟩ nodeText
        | _ => rfl
      refine .textless stopped nothing fun refused => ?_
      rintro (absent | ⟨text, _⟩)
      · cases nodeIs.symm.trans absent
      · exact nodeText text

theorem refusedAtOnce_given (request : Request json node group tags) :
    RefusedAtOnce json refused ↔ ∀ items, tags = .array items → refused items := by
  rw [RefusedAtOnce, request.node, request.group, request.tags]
  simp

theorem request_decided {Decides Asked : Prop} (casts : CastOps) (asked : Asked → GivesArray json)
    (lacking : neuJsonDecodeByJson casts (some json) requestElems = .error .failed →
      ¬ GivesArray json → Decides)
    (textless : neuJsonDecodeByJson casts (some json) requestElems = .error .crashed → ¬ Decides)
    (other : ∀ node group tags, Request json node group tags → (∀ items, tags ≠ .array items) →
      ¬ GivesArray json → Decides)
    (array : ∀ node group items, Request json node group (.array items) →
      (Decides ↔ Asked ∨ refused items)) :
    Decides ↔ Asked ∨ RefusedAtOnce json refused := by
  cases request_ends casts json with
  | lacking ran nothing atOnce =>
    refine iff_of_true (lacking ran ?_) (.inr (atOnce refused))
    exact fun ⟨node, group, items, request⟩ => nothing ⟨node, group, _, request⟩
  | textless ran nothing accepted =>
    refine iff_of_false (textless ran) ?_
    rintro (asks | refuses)
    · obtain ⟨node, group, items, request⟩ := asked asks
      exact nothing ⟨node, group, _, request⟩
    · exact accepted refused refuses
  | given node group tags request =>
    rw [refusedAtOnce_given request]
    by_cases is : ∃ items, tags = .array items
    · obtain ⟨items, rfl⟩ := is
      rw [array node group items request]
      simp
    · have different : ∀ items, tags ≠ .array items := fun items same => is ⟨items, same⟩
      refine iff_of_true (other node group tags request different ?_)
        (.inr fun items same => absurd same (different items))
      exact fun ⟨_, _, items, request'⟩ => different items (request.same request').2.2

end

end Cpm
