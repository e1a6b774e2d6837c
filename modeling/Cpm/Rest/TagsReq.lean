import Cpm.Lib.Memory
import Cpm.Rest.GlobalConfig
import Cpm.Rest.Request
import Cpm.Rest.TagSpec

/-! The requests that add and update tags, from `neu_json_tag.c`, with the blocks that are allocated
for them and freed when they fail. -/
namespace Cpm

open Lib Lib.Decode Lib.Memory

abbrev NeuJsonUpdateTagsReq := NeuJsonAddTagsReq

/-- A value, with the block that its text or its bytes lie in. -/
structure Slot where
  value : Option NeuJsonValue
  block : Option Nat

structure HeldTag where
  type : Slot
  name : Slot
  attributes : Slot
  address : Slot
  decimal : Slot
  precision : Slot
  description : Slot
  value : Slot

def Slot.textBlock : Slot → Option Nat
  | ⟨some (.str _), block⟩ => block
  | _ => none

namespace HeldTag

def ofSlots : List Slot → HeldTag
  | [type, name, attributes, address, decimal, precision, description, value] =>
    ⟨type, name, attributes, address, decimal, precision, description, value⟩
  | _ =>
    let clear : Slot := ⟨none, none⟩
    ⟨clear, clear, clear, clear, clear, clear, clear, clear⟩

def tag (held : HeldTag) : NeuJsonTag where
  address := (textOf held.address.value).getD (.lit "")
  name := (textOf held.name.value).getD (.lit "")
  type := intOf held.type.value
  attributes := intOf held.attributes.value
  description := textOf held.description.value
  precision := intOf held.precision.value
  decimal := doubleOf held.decimal.value
  value := held.value.value.getD .undefine

def texts (held : HeldTag) : List (Option Nat) :=
  [held.name.block, held.address.block, held.description.block, held.value.textBlock]

end HeldTag

def slotOf : Option NeuJsonValue → Mem Slot
  | some (.str text) => do return ⟨some (.str text), some (← alloc)⟩
  | some (.bytes (b :: rest)) => do return ⟨some (.bytes (b :: rest)), some (← alloc)⟩
  | value => pure ⟨value, none⟩

def slotsOf : List (Option NeuJsonValue) → Mem (List Slot)
  | [] => pure []
  | value :: rest => do
    let slot ← slotOf value
    let slots ← slotsOf rest
    return slot :: slots

namespace Blocks

def neuJsonDecodeByJson (casts : CastOps) (json : Json) (elems : List NeuJsonElem) :
    Mem (List Slot × Int) :=
  match decodeElems casts json elems with
  | (_, some .crashed) => fault
  | (values, some .failed) => do return (← slotsOf values, -1)
  | (values, none) => do return (← slotsOf values, 0)

def neuJsonDecodeTagFini (held : HeldTag) : Mem Unit := freeAll held.texts

def neuJsonDecodeTagJson (casts : CastOps) (json : Json) : Mem (Option HeldTag) := do
  let (slots, ret) ← neuJsonDecodeByJson casts json tagElems
  let held := HeldTag.ofSlots slots
  if ret = 0 ∧ neuJsonTagCheckType held.tag = true then return some held
  else do
    neuJsonDecodeTagFini held
    return none

/-- `while (--i > 0)`: the first tag is left as it is. -/
def cleanTags (tags : List HeldTag) : Nat → Mem Unit
  | 0 => pure ()
  | i + 1 =>
    if 0 < i then
      match tags[i]? with
      | none => fault
      | some held => do
        neuJsonDecodeTagFini held
        cleanTags tags i
    else pure ()

def decodeTags (casts : CastOps) (array : Nat) : List Json → List HeldTag → Mem (Option (List HeldTag))
  | [], tags => pure (some tags)
  | item :: rest, tags => do
    match ← neuJsonDecodeTagJson casts item with
    | some held => decodeTags casts array rest (tags ++ [held])
    | none => do
      cleanTags tags tags.length
      free (some array)
      return none

/-- The length and the tags. There is no room for a negative number of them. -/
def decodeArray (casts : CastOps) (items : List Json) (len : Int) : Mem (Option (Int × List HeldTag)) :=
  if len = 0 then pure (some (0, []))
  else if len < 0 then pure none
  else do
    let array ← alloc
    match ← decodeTags casts array (items.take len.toNat) [] with
    | some tags => return some (len, tags)
    | none => return none

/-- `int len`. -/
@[irreducible] def arrayLen (items : List Json) : Int := (items.length : Int).bmod (2 ^ 32)

def neuJsonDecodeTagArrayJson (casts : CastOps) : Json → Mem (Option (Int × List HeldTag))
  | .array items => decodeArray casts items (arrayLen items)
  | _ => pure none

/-- `decode_fail`. The elements are not there yet if the text could not be loaded. -/
def decodeFail (req : Nat) : Option (List Slot) → Mem (Option NeuJsonAddTagsReq)
  | some (node :: group :: _) => do
    freeAll [some req, node.block, group.block]
    return none
  | _ => fault

def decodeRest (req : Nat) (slots : List Slot) (node group : CStr)
    (array : Mem (Option (Int × List HeldTag))) : Mem (Option NeuJsonAddTagsReq) := do
  match ← array with
  | none => decodeFail req (some slots)
  | some (len, tags) =>
    if len ≤ 0 then decodeFail req (some slots)
    else return some { node, group, tags := tags.map HeldTag.tag }

def decodeLoaded (casts : CastOps) (req : Nat) (json : Json) : Mem (Option NeuJsonAddTagsReq) := do
  let (slots, ret) ← neuJsonDecodeByJson casts json requestElems
  if ret ≠ 0 then decodeFail req (some slots)
  else
    match slots with
    | [⟨some (.str node), _⟩, ⟨some (.str group), _⟩, ⟨some (.object tags), _⟩] =>
      decodeRest req slots node group (neuJsonDecodeTagArrayJson casts tags)
    | _ => fault

def decodeTagsReq (loads : CStr → Option Json) (casts : CastOps) (buf : CStr) :
    Mem (Option NeuJsonAddTagsReq) := do
  let req ← alloc
  match loads buf with
  | none => decodeFail req none
  | some json => do
    let object ← alloc
    let result ← decodeLoaded casts req json
    free (some object)
    return result

def neuJsonDecodeAddTagsReq (loads : CStr → Option Json) (casts : CastOps) (buf : CStr) :
    Mem (Option NeuJsonAddTagsReq) :=
  decodeTagsReq loads casts buf

def neuJsonDecodeUpdateTagsReq (loads : CStr → Option Json) (casts : CastOps) (buf : CStr) :
    Mem (Option NeuJsonUpdateTagsReq) :=
  decodeTagsReq loads casts buf

end Blocks

/- What a body has to be. -/

def AsksTags (casts : CastOps) (json : Json) (req : NeuJsonAddTagsReq) : Prop :=
  ∃ items, Request json req.node req.group (.array items) ∧ items ≠ [] ∧
    List.Forall₂ (TagOf casts) items req.tags

/-- The decoder ends with the request that the body asks for, or with -1 if it asks for none, and
whatever blocks there were before are still there. -/
def DecodesTags (loads : CStr → Option Json) (casts : CastOps)
    (decode : CStr → Mem (Option NeuJsonAddTagsReq)) (buf : CStr) : Prop :=
  ∀ heap, ∃ result heap', decode buf heap = some (result, heap') ∧
    (∀ req, result = some req ↔ ∃ json, loads buf = some json ∧ AsksTags casts json req) ∧
    ∀ p < heap.next, heap'.live p = heap.live p

/-- The array is refused for its length, or for the first tag that cannot be accepted. -/
def RefusedTags (casts : CastOps) (items : List Json) : Prop :=
  items = [] ∨ Blocks.arrayLen items ≤ 0 ∧ (∃ item ∈ items, ¬ ∃ tag, TagOf casts item tag) ∨
    ∃ front item rest, items.take (Blocks.arrayLen items).toNat = front ++ item :: rest ∧
      (∀ other ∈ front, AcceptedTag other) ∧ RefusedTag item

/-- The body is JSON, and either asks for tags, as many as an `int` counts, or is refused before the
decoder stumbles. -/
def CleanBody (loads : CStr → Option Json) (casts : CastOps) (buf : CStr) : Prop :=
  ∃ json, loads buf = some json ∧
    ((∃ req, AsksTags casts json req ∧ req.tags.length < 2 ^ 31) ∨
      RefusedAtOnce json (RefusedTags casts))

/- The blocks of each part. -/

def slotBlocks (slots : List Slot) : Multiset Nat := slots.filterMap Slot.block

def HeldTag.blocks (held : HeldTag) : Multiset Nat := held.texts.filterMap id

def tagBlocks (tags : List HeldTag) : Multiset Nat := (tags.map HeldTag.blocks).sum

/-- The program ends as the decoder that knows of no blocks: with a result that says the same, with
-1, or where nothing has a meaning. -/
def Does {α β : Type} (pre : Multiset Nat) (m : Mem (Option α)) (outcome : Decoded β) (plain : α → β)
    (blocks : α → Multiset Nat) : Prop :=
  match outcome with
  | .ok b => Triple pre m (fun result => ∃ a, result = some a ∧ plain a = b) fun result =>
      result.elim 0 blocks
  | .error .failed => Triple pre m (· = none) fun _ => 0
  | .error .crashed => Faults m

section
variable {casts : CastOps} {json item : Json} {elems : List NeuJsonElem} {items : List Json}

theorem triple_slotOf (value : Option NeuJsonValue) :
    Triple 0 (slotOf value) (fun slot => slot.value = value) fun slot => slot.block.toList := by
  have held (value : Option NeuJsonValue) : Triple 0 (do return ⟨value, some (← alloc)⟩)
      (fun slot : Slot => slot.value = value) fun slot => slot.block.toList :=
    triple_bind triple_alloc fun p _ => triple_pure rfl rfl
  have free (value : Option NeuJsonValue) : Triple 0 (pure ⟨value, none⟩)
      (fun slot : Slot => slot.value = value) fun slot => slot.block.toList :=
    triple_pure rfl rfl
  match value with
  | some (.str text) => exact held _
  | some (.bytes (b :: rest)) => exact held _
  | none | some .undefine | some (.int _) | some (.bit _) | some (.double _) | some (.float _)
  | some (.bool _) | some (.object _) | some (.bytes []) => exact free _

theorem triple_slotsOf (values : List (Option NeuJsonValue)) :
    Triple 0 (slotsOf values) (fun slots => slots.map Slot.value = values) slotBlocks := by
  induction values with
  | nil => exact triple_pure rfl rfl
  | cons value rest ih =>
    refine triple_bind (triple_slotOf value) fun slot same => ?_
    refine triple_before ih fun slots same' => ?_
    have blocks : slotBlocks slots + slot.block.toList = slotBlocks (slot :: slots) := by
      rw [Multiset.add_comm, slotBlocks, slotBlocks, List.filterMap_cons]
      cases slot.block <;> simp
    exact triple_pure blocks.symm (by rw [List.map_cons, same, same'])

theorem triple_byJson (sound : (decodeElems casts json elems).2 ≠ some .crashed) :
    Triple 0 (Blocks.neuJsonDecodeByJson casts json elems)
      (fun result => result.1.map Slot.value = (decodeElems casts json elems).1 ∧
        (result.2 = 0 ↔ (decodeElems casts json elems).2 = none))
      fun result => slotBlocks result.1 := by
  unfold Blocks.neuJsonDecodeByJson
  cases decoded : decodeElems casts json elems with
  | mk values ended =>
    rw [decoded] at sound
    match ended, sound with
    | some .failed, _ =>
      refine triple_bind (triple_slotsOf values) fun slots same => ?_
      exact triple_pure rfl ⟨same, by simp⟩
    | none, _ =>
      refine triple_bind (triple_slotsOf values) fun slots same => ?_
      exact triple_pure rfl ⟨same, by simp⟩

theorem faults_byJson (crashed : (decodeElems casts json elems).2 = some .crashed) :
    Faults (Blocks.neuJsonDecodeByJson casts json elems) := by
  unfold Blocks.neuJsonDecodeByJson
  cases decoded : decodeElems casts json elems with
  | mk values ended =>
    rw [decoded] at crashed
    cases crashed
    exact faults_fault

theorem texts_slots (slots : List Slot) : (HeldTag.ofSlots slots).blocks ≤ slotBlocks slots := by
  unfold HeldTag.ofSlots
  split
  · next type name attributes address decimal precision description value =>
    have text : ([value.textBlock].filterMap id).Sublist ([value.block].filterMap id) := by
      unfold Slot.textBlock
      split
      · exact List.Sublist.refl _
      · exact List.nil_sublist _
    have others : [name.block, address.block, description.block].Sublist
        [type.block, name.block, attributes.block, address.block, decimal.block, precision.block,
          description.block] :=
      .cons _ (.cons_cons _ (.cons _ (.cons_cons _ (.cons _ (.cons _ (.refl _))))))
    have all := (others.filterMap id).append text
    rw [← List.filterMap_append, ← List.filterMap_append] at all
    have inside : HeldTag.blocks ⟨type, name, attributes, address, decimal, precision, description,
        value⟩ ≤ (([type, name, attributes, address, decimal, precision, description,
          value].map Slot.block).filterMap id : Multiset Nat) := all.subperm
    rwa [List.filterMap_map] at inside
  · exact Multiset.zero_le _

theorem triple_fini (held : HeldTag) :
    Triple held.blocks (Blocks.neuJsonDecodeTagFini held) (fun _ => True) fun _ => 0 :=
  triple_freeAll held.texts

theorem slots_eight {slots : List Slot} (length : slots.length = 8) :
    ∃ a b c d e f g h, slots = [a, b, c, d, e, f, g, h] :=
  match slots, length with
  | [a, b, c, d, e, f, g, h], _ => ⟨a, b, c, d, e, f, g, h, rfl⟩

theorem ofSlots_tag {slots : List Slot}
    (ok : neuJsonDecodeByJson casts (some item) tagElems = .ok (slots.map Slot.value)) :
    neuJsonDecodeTagJson casts (some item) =
      if neuJsonTagCheckType (HeldTag.ofSlots slots).tag then .ok (HeldTag.ofSlots slots).tag
      else .error .failed := by
  obtain ⟨type, name, attributes, address, decimal, precision, description, value, values⟩ :=
    decodeTag_values ok
  have length := congrArg List.length values
  rw [List.length_map] at length
  obtain ⟨a, b, c, d, e, f, g, h, rfl⟩ := slots_eight length
  rw [neuJsonDecodeTagJson, ok]
  simp only [List.map_cons, List.map_nil, List.cons.injEq, and_true] at values
  obtain ⟨type', name', attributes', address', decimal', precision', description', value'⟩ := values
  simp only [List.map_cons, List.map_nil, HeldTag.ofSlots, HeldTag.tag, type', name', attributes',
    address', textOf, intOf, Option.getD_some]
  rfl

theorem tag_does (casts : CastOps) (item : Json) :
    Does 0 (Blocks.neuJsonDecodeTagJson casts item) (neuJsonDecodeTagJson casts (some item))
      HeldTag.tag HeldTag.blocks := by
  have plain := decodeElems_by_json casts item tagElems
  cases ended : (decodeElems casts item tagElems).2 with
  | some e =>
    rw [ended] at plain
    rw [decodeTag_error plain]
    cases e with
    | crashed => exact (faults_byJson ended).bind _
    | failed =>
      have sound : (decodeElems casts item tagElems).2 ≠ some .crashed := by simp [ended]
      refine triple_bind (triple_byJson sound) fun result done => ?_
      have nonzero : result.2 ≠ 0 := fun zero => by cases ended.symm.trans (done.2.1 zero)
      have refuses : ¬ (result.2 = 0 ∧
          neuJsonTagCheckType (HeldTag.ofSlots result.1).tag = true) := fun both => nonzero both.1
      dsimp only
      rw [if_neg refuses]
      refine triple_bind ((triple_fini _).leak (texts_slots result.1)) fun _ _ => ?_
      exact triple_pure rfl rfl
  | none =>
    rw [ended] at plain
    have sound : (decodeElems casts item tagElems).2 ≠ some .crashed := by simp [ended]
    have made {slots : List Slot} (same : slots.map Slot.value = (decodeElems casts item tagElems).1) :=
      ofSlots_tag (same ▸ plain)
    cases outcome : neuJsonDecodeTagJson casts (some item) with
    | ok tag =>
      refine triple_bind (triple_byJson sound) fun result done => ?_
      have tagged := made done.1
      rw [outcome] at tagged
      split at tagged
      · next fits =>
        cases tagged
        dsimp only
        rw [if_pos ⟨done.2.2 ended, fits⟩]
        refine (triple_pure rfl ?_).leak (texts_slots result.1)
        exact ⟨HeldTag.ofSlots result.1, rfl, rfl⟩
      · cases tagged
    | error e =>
      have length : (decodeElems casts item tagElems).1 =
          ((decodeElems casts item tagElems).1.map fun value => Slot.mk value none).map Slot.value := by
        rw [List.map_map]
        exact (List.map_id _).symm
      have tagged := made length.symm
      rw [outcome] at tagged
      split at tagged
      · cases tagged
      · cases tagged
        refine triple_bind (triple_byJson sound) fun result done => ?_
        have tagged := made done.1
        rw [outcome] at tagged
        split at tagged
        · cases tagged
        · next misfits =>
          dsimp only
          rw [if_neg fun both => misfits both.2]
          refine triple_bind ((triple_fini _).leak (texts_slots result.1)) fun _ _ => ?_
          exact triple_pure rfl rfl

theorem tagBlocks_append (tags : List HeldTag) (held : HeldTag) :
    tagBlocks (tags ++ [held]) = tagBlocks tags + held.blocks := by
  rw [tagBlocks, List.map_append, List.sum_append, List.map_singleton, List.sum_singleton, tagBlocks]

theorem triple_cleanTags (tags : List HeldTag) {i : Nat} (within : i ≤ tags.length) :
    Triple (tagBlocks (tags.take i)) (Blocks.cleanTags tags i) (fun _ => True) fun _ => 0 := by
  induction i with
  | zero => exact triple_pure rfl trivial
  | succ i ih =>
    rw [Blocks.cleanTags]
    split
    · have here : tags[i]? = some tags[i] := List.getElem?_eq_getElem within
      rw [here, List.take_add_one, here, Option.toList_some, tagBlocks_append, Multiset.add_comm]
      exact triple_after (triple_fini tags[i]) fun _ _ => ih (Nat.le_of_succ_le within)
    · exact (triple_pure rfl trivial).leak (Multiset.zero_le _)

theorem tags_do (casts : CastOps) (array : Nat) (rest : List Json) (tags : List HeldTag) :
    Does ({array} + tagBlocks tags) (Blocks.decodeTags casts array rest tags)
      ((rest.mapM fun item => neuJsonDecodeTagJson casts (some item)).map (tags.map HeldTag.tag ++ ·))
      (List.map HeldTag.tag) (fun all => {array} + tagBlocks all) := by
  induction rest generalizing tags with
  | nil =>
    have same : tags.map HeldTag.tag ++ [] = tags.map HeldTag.tag := List.append_nil _
    exact triple_pure rfl ⟨tags, rfl, same.symm⟩
  | cons item rest ih =>
    have one := tag_does casts item
    rw [List.mapM_cons]
    cases outcome : neuJsonDecodeTagJson casts (some item) with
    | error e =>
      rw [outcome] at one
      cases e with
      | crashed => exact one.bind _
      | failed =>
        refine triple_before one fun result none => ?_
        subst none
        rw [Multiset.zero_add, Multiset.add_comm]
        have clean := triple_cleanTags tags (Nat.le_refl _)
        rw [List.take_length] at clean
        refine triple_after clean fun _ _ => ?_
        exact triple_bind (triple_free (some array)) fun _ _ => triple_pure rfl rfl
    | ok tag =>
      rw [outcome] at one
      have further (held : HeldTag) := ih (tags ++ [held])
      cases others : rest.mapM fun item => neuJsonDecodeTagJson casts (some item) with
      | error e =>
        rw [others] at further
        cases e with
        | crashed =>
          refine Triple.faults one fun result done => ?_
          obtain ⟨held, rfl, _⟩ := done
          exact further held
        | failed =>
          refine triple_before one fun result done => ?_
          obtain ⟨held, rfl, _⟩ := done
          have blocks : held.blocks + ({array} + tagBlocks tags) =
              {array} + tagBlocks (tags ++ [held]) := by
            rw [tagBlocks_append, Multiset.add_comm, Multiset.add_assoc]
          exact blocks ▸ further held
      | ok found =>
        rw [others] at further
        refine triple_before one fun result done => ?_
        obtain ⟨held, rfl, rfl⟩ := done
        have blocks : held.blocks + ({array} + tagBlocks tags) =
            {array} + tagBlocks (tags ++ [held]) := by
          rw [tagBlocks_append, Multiset.add_comm, Multiset.add_assoc]
        have whole : (tags ++ [held]).map HeldTag.tag ++ found =
            tags.map HeldTag.tag ++ held.tag :: found := by
          simp
        refine Triple.weaken (blocks ▸ further held) fun result done => ⟨?_, le_refl _⟩
        obtain ⟨all, rfl, plain⟩ := done
        exact ⟨all, rfl, plain.trans whole⟩

def plainTags (casts : CastOps) (items : List Json) (len : Int) : Decoded (List NeuJsonTag) :=
  (items.take len.toNat).mapM fun item => neuJsonDecodeTagJson casts (some item)

theorem array_does (casts : CastOps) (items : List Json) {len : Int} (some' : 0 < len) :
    Does 0 (Blocks.decodeArray casts items len) ((plainTags casts items len).map (len, ·))
      (Prod.map id (List.map HeldTag.tag)) fun _ => 0 := by
  rw [Blocks.decodeArray, if_neg (by omega), if_neg (by omega), plainTags]
  have tags (array : Nat) := tags_do casts array (items.take len.toNat) []
  have start (array : Nat) : {array} + tagBlocks [] = ({array} : Multiset Nat) + 0 := rfl
  cases outcome : (items.take len.toNat).mapM fun item => neuJsonDecodeTagJson casts (some item) with
  | error e =>
    rw [outcome] at tags
    cases e with
    | crashed => exact triple_alloc.faults fun array _ => Faults.bind (tags array) _
    | failed =>
      refine triple_before triple_alloc fun array _ => ?_
      refine triple_bind (start array ▸ tags array) fun result none => ?_
      subst none
      exact triple_pure rfl rfl
  | ok found =>
    rw [outcome] at tags
    refine triple_before triple_alloc fun array _ => ?_
    refine triple_bind (start array ▸ tags array) fun result done => ?_
    obtain ⟨all, rfl, plain⟩ := done
    refine (triple_pure rfl ?_).leak (Multiset.zero_le _)
    exact ⟨(len, all), rfl, congrArg (Prod.mk len) plain⟩

theorem array_nothing (casts : CastOps) (items : List Json) {len : Int} (none' : len ≤ 0) :
    Triple 0 (Blocks.decodeArray casts items len)
      (fun result => ∀ len tags, result = some (len, tags) → len ≤ 0) fun _ => 0 := by
  rw [Blocks.decodeArray]
  split
  · exact triple_pure rfl fun len tags same => by cases same; exact Int.le_refl 0
  · rw [if_pos (by omega)]
    exact triple_pure rfl nofun

theorem triple_decodeFail {req : Nat} {slots : List Slot} {a b c : Slot} (are : slots = [a, b, c]) :
    Triple ({req} + slotBlocks slots) (Blocks.decodeFail req (some slots)) (· = none) fun _ => 0 := by
  subst are
  have texts : (([some req, a.block, b.block].filterMap id : List Nat) : Multiset Nat) ≤
      {req} + slotBlocks [a, b, c] := by
    have inside : [some req, a.block, b.block].Sublist [some req, a.block, b.block, c.block] :=
      .cons_cons _ (.cons_cons _ (.cons_cons _ (.cons _ (.refl _))))
    have all := (inside.filterMap id).subperm
    have same : ({req} + slotBlocks [a, b, c] : Multiset Nat) =
        ([some req, a.block, b.block, c.block].filterMap id : List Nat) := by
      have blocks : [a, b, c].filterMap Slot.block = [a.block, b.block, c.block].filterMap id :=
        (List.filterMap_map).symm
      rw [slotBlocks, blocks, Multiset.singleton_add, Multiset.cons_coe]
      rfl
    rw [same]
    exact all
  exact triple_bind ((triple_freeAll _).leak texts) fun _ _ => triple_pure rfl rfl

def plainArray (casts : CastOps) : Json → Decoded (List NeuJsonTag)
  | .array items =>
    if Blocks.arrayLen items ≤ 0 then .error .failed
    else plainTags casts items (Blocks.arrayLen items)
  | _ => .error .failed

def plainLoaded (casts : CastOps) (json : Json) : Decoded NeuJsonAddTagsReq :=
  match neuJsonDecodeByJson casts (some json) requestElems with
  | .error e => .error e
  | .ok [some (.str node), some (.str group), some (.object tags)] =>
    (plainArray casts tags).map fun tags => { node, group, tags }
  | .ok _ => .error .failed

theorem slots_three {slots : List Slot} (length : slots.length = 3) : ∃ a b c, slots = [a, b, c] :=
  match slots, length with
  | [a, b, c], _ => ⟨a, b, c, rfl⟩

theorem decodeElems_length (casts : CastOps) (json : Json) (elems : List NeuJsonElem) :
    (decodeElems casts json elems).1.length = elems.length := by
  induction elems with
  | nil => rfl
  | cons elem rest ih =>
    rw [decodeElems]
    cases decodeObject casts json elem with
    | error e => simp
    | ok value => simp [ih]

section
variable {slots : List Slot} {a b c : Slot} (are : slots = [a, b, c]) (casts : CastOps) (req : Nat)
  (node group : CStr)
include are

theorem rest_nothing {array : Mem (Option (Int × List HeldTag))}
    (nothing : Triple 0 array (fun result => ∀ len tags, result = some (len, tags) → len ≤ 0) fun _ => 0) :
    Triple ({req} + slotBlocks slots) (Blocks.decodeRest req slots node group array) (· = none)
      fun _ => 0 := by
  refine triple_before nothing fun result few => ?_
  rw [Multiset.zero_add]
  match result, few with
  | none, _ => exact triple_decodeFail are
  | some (len, tags), few =>
    dsimp only
    rw [if_pos (few len tags rfl)]
    exact triple_decodeFail are

theorem rest_array (items : List Json) (len : Int) :
    Does ({req} + slotBlocks slots)
      (Blocks.decodeRest req slots node group (Blocks.decodeArray casts items len))
      ((if len ≤ 0 then .error .failed else plainTags casts items len).map fun tags =>
        { node, group, tags })
      (id : NeuJsonAddTagsReq → NeuJsonAddTagsReq) fun _ => 0 := by
  by_cases few : len ≤ 0
  · rw [if_pos few]
    exact rest_nothing are req node group (array_nothing casts items few)
  rw [if_neg few]
  have array := array_does casts items (Int.not_le.1 few)
  cases outcome : plainTags casts items len with
  | error e =>
    rw [outcome] at array
    cases e with
    | crashed => exact Faults.bind array _
    | failed =>
      refine rest_nothing are req node group (Triple.weaken array fun result none => ⟨?_, le_refl _⟩)
      intro len tags same
      cases none.symm.trans same
  | ok found =>
    rw [outcome] at array
    refine triple_before array fun result done => ?_
    obtain ⟨⟨len', tags⟩, rfl, same⟩ := done
    obtain rfl : len' = len := congrArg Prod.fst same
    obtain rfl : tags.map HeldTag.tag = found := congrArg Prod.snd same
    dsimp only
    rw [if_neg few]
    exact (triple_pure rfl ⟨_, rfl, rfl⟩).leak (Multiset.zero_le _)

theorem rest_does (tags : Json) :
    Does ({req} + slotBlocks slots)
      (Blocks.decodeRest req slots node group (Blocks.neuJsonDecodeTagArrayJson casts tags))
      ((plainArray casts tags).map fun tags => { node, group, tags })
      (id : NeuJsonAddTagsReq → NeuJsonAddTagsReq) fun _ => 0 := by
  cases tags with
  | array items => exact rest_array are casts req node group items (Blocks.arrayLen items)
  | _ => exact rest_nothing are req node group (triple_pure rfl nofun)

end

theorem loaded_does (casts : CastOps) (req : Nat) (json : Json) :
    Does {req} (Blocks.decodeLoaded casts req json) (plainLoaded casts json) id fun _ => 0 := by
  have plain := decodeElems_by_json casts json requestElems
  have three {slots : List Slot} (same : slots.map Slot.value = (decodeElems casts json requestElems).1) :
      ∃ a b c, slots = [a, b, c] := by
    apply slots_three
    rw [← List.length_map, same, decodeElems_length]
    rfl
  cases ended : (decodeElems casts json requestElems).2 with
  | some e =>
    rw [ended] at plain
    rw [plainLoaded, plain]
    cases e with
    | crashed => exact (faults_byJson ended).bind _
    | failed =>
      have sound : (decodeElems casts json requestElems).2 ≠ some .crashed := by simp [ended]
      refine triple_before (triple_byJson sound) fun result done => ?_
      have nonzero : result.2 ≠ 0 := fun zero => by cases ended.symm.trans (done.2.1 zero)
      dsimp only
      rw [if_pos nonzero, Multiset.add_comm]
      obtain ⟨a, b, c, are⟩ := three done.1
      exact triple_decodeFail are
  | none =>
    have sound : (decodeElems casts json requestElems).2 ≠ some .crashed := by simp [ended]
    rw [ended] at plain
    cases request_ends casts json with
    | lacking ran => cases plain.symm.trans ran
    | textless ran => cases plain.symm.trans ran
    | given node group tags request =>
      have values := Except.ok.inj (plain.symm.trans (decodeRequest_ok request))
      have shape {slots : List Slot}
          (same : slots.map Slot.value = (decodeElems casts json requestElems).1) : ∃ a b c,
            slots = [⟨some (.str node), a⟩, ⟨some (.str group), b⟩, ⟨some (.object tags), c⟩] := by
        obtain ⟨a, b, c, rfl⟩ := three same
        rw [values] at same
        simp only [List.map_cons, List.map_nil, List.cons.injEq, and_true] at same
        exact ⟨a.block, b.block, c.block, by rw [← same.1, ← same.2.1, ← same.2.2]⟩
      have rest (result : List Slot × Int)
          (done : result.1.map Slot.value = (decodeElems casts json requestElems).1 ∧
            (result.2 = 0 ↔ (decodeElems casts json requestElems).2 = none)) :
          Does (slotBlocks result.1 + {req})
            (if result.2 ≠ 0 then Blocks.decodeFail req (some result.1)
            else
              match result.1 with
              | [⟨some (.str node), _⟩, ⟨some (.str group), _⟩, ⟨some (.object tags), _⟩] =>
                Blocks.decodeRest req result.1 node group (Blocks.neuJsonDecodeTagArrayJson casts tags)
              | _ => fault)
            ((plainArray casts tags).map fun tags => { node, group, tags })
            (id : NeuJsonAddTagsReq → NeuJsonAddTagsReq) fun _ => 0 := by
        obtain ⟨a, b, c, are⟩ := shape done.1
        rw [if_neg (fun nonzero => nonzero (done.2.2 ended)), Multiset.add_comm]
        have here := rest_does are casts req node group tags
        rw [are] at here ⊢
        exact here
      rw [plainLoaded, decodeRequest_ok request]
      dsimp only
      generalize ((plainArray casts tags).map fun tags =>
        (⟨node, group, tags⟩ : NeuJsonAddTagsReq)) = outcome at rest ⊢
      cases outcome with
      | error e =>
        cases e with
        | crashed => exact (triple_byJson sound).faults rest
        | failed => exact triple_before (triple_byJson sound) rest
      | ok req => exact triple_before (triple_byJson sound) rest

section
variable {loads : CStr → Option Json} {buf : CStr}

theorem body_does (casts : CastOps) (loaded : loads buf = some json) :
    Does 0 (Blocks.decodeTagsReq loads casts buf) (plainLoaded casts json) id fun _ => 0 := by
  have document (req : Nat) := loaded_does casts req json
  unfold Blocks.decodeTagsReq
  rw [loaded]
  dsimp only
  have freed (req object : Nat) {post : Option NeuJsonAddTagsReq → Prop}
      {owned : Option NeuJsonAddTagsReq → Multiset Nat}
      (runs : Triple {req} (Blocks.decodeLoaded casts req json) post owned)
      (nothing : ∀ result, owned result = 0) :
      Triple ({object} + ({req} + 0)) (do
        let result ← Blocks.decodeLoaded casts req json
        free (some object)
        return result) post fun _ => 0 := by
    rw [Multiset.add_zero, Multiset.add_comm]
    refine triple_bind (runs.frame _) fun result done => ?_
    rw [nothing, Multiset.zero_add]
    exact triple_bind (triple_free (some object)) fun _ _ => triple_pure rfl done
  cases outcome : plainLoaded casts json with
  | error e =>
    rw [outcome] at document
    cases e with
    | crashed =>
      refine triple_alloc.faults fun req _ => triple_alloc.faults fun object _ => ?_
      exact Faults.bind (document req) _
    | failed =>
      refine triple_before triple_alloc fun req _ => triple_before triple_alloc fun object _ => ?_
      exact freed req object (document req) fun _ => rfl
  | ok asked =>
    rw [outcome] at document
    refine triple_before triple_alloc fun req _ => triple_before triple_alloc fun object _ => ?_
    have all := freed req object (document req) fun result => by cases result <;> rfl
    exact all.weaken fun result done => ⟨done, Multiset.le_zero.2 (by cases result <;> rfl)⟩

/-- A body that is no JSON: the elements are read before they are there. -/
theorem body_unloaded (casts : CastOps) (unloaded : loads buf = none) :
    Faults (Blocks.decodeTagsReq loads casts buf) := by
  unfold Blocks.decodeTagsReq
  rw [unloaded]
  exact triple_alloc.faults fun _ _ => faults_fault

theorem decodesTags_triple {result : Option NeuJsonAddTagsReq}
    {decode : CStr → Mem (Option NeuJsonAddTagsReq)}
    {owned : Option NeuJsonAddTagsReq → Multiset Nat}
    (triple : Triple 0 (decode buf) (· = result) owned) (loaded : loads buf = some json) :
    DecodesTags loads casts decode buf ↔ ∀ req, result = some req ↔ AsksTags casts json req := by
  have same (req : NeuJsonAddTagsReq) :
      (∃ json', loads buf = some json' ∧ AsksTags casts json' req) ↔ AsksTags casts json req := by
    rw [loaded]
    simp
  simp only [DecodesTags, same]
  constructor
  · intro decodes
    obtain ⟨result', heap', ran, exact', _⟩ := decodes ⟨0, fun _ => false⟩
    obtain ⟨again, heap'', ran', rfl, _⟩ := triple ⟨0, fun _ => false⟩ ⟨0, fun _ => false⟩ 0
      (owned_start _)
    cases ran.symm.trans ran'
    exact exact'
  · intro exact' heap
    obtain ⟨result', heap', ran, rfl, own⟩ := triple heap heap 0 (owned_start heap)
    exact ⟨result', heap', ran, exact', own.kept⟩

theorem decodesTags_faults {decode : CStr → Mem (Option NeuJsonAddTagsReq)}
    (faults : Faults (decode buf)) : ¬ DecodesTags loads casts decode buf := by
  intro decodes
  obtain ⟨_, _, ran, _⟩ := decodes ⟨0, fun _ => false⟩
  cases (faults _).symm.trans ran

theorem decodesTags_failed (loaded : loads buf = some json)
    (outcome : plainLoaded casts json = .error .failed) :
    DecodesTags loads casts (Blocks.decodeTagsReq loads casts) buf ↔
      ¬ ∃ req, AsksTags casts json req := by
  have does := body_does casts loaded
  rw [outcome] at does
  rw [decodesTags_triple does loaded]
  constructor
  · rintro exact' ⟨req, asks⟩
    cases (exact' req).2 asks
  · exact fun nothing req => iff_of_false nofun fun asks => nothing ⟨req, asks⟩

theorem decodesTags_ok {found : NeuJsonAddTagsReq} (loaded : loads buf = some json)
    (outcome : plainLoaded casts json = .ok found) :
    DecodesTags loads casts (Blocks.decodeTagsReq loads casts) buf ↔
      ∀ req, found = req ↔ AsksTags casts json req := by
  have does := body_does casts loaded
  rw [outcome] at does
  have triple : Triple 0 (Blocks.decodeTagsReq loads casts buf) (· = some found) fun _ => 0 := by
    refine Triple.weaken does fun result done => ⟨?_, Multiset.zero_le _⟩
    obtain ⟨_, rfl, rfl⟩ := done
    rfl
  rw [decodesTags_triple triple loaded]
  simp only [Option.some.injEq]

theorem decodesTags_crashed (loaded : loads buf = some json)
    (outcome : plainLoaded casts json = .error .crashed) :
    ¬ DecodesTags loads casts (Blocks.decodeTagsReq loads casts) buf := by
  have does := body_does casts loaded
  rw [outcome] at does
  exact decodesTags_faults does

end

section
variable {loads : CStr → Option Json} {buf node group : CStr} {req : NeuJsonAddTagsReq}

theorem asksTags_array (request : Request json node group (.array items)) :
    AsksTags casts json req ↔ items ≠ [] ∧ req.node = node ∧ req.group = group ∧
      List.Forall₂ (TagOf casts) items req.tags := by
  constructor
  · rintro ⟨items', request', nonempty, tags⟩
    obtain ⟨rfl, rfl, array⟩ := request.same request'
    cases array
    exact ⟨nonempty, rfl, rfl, tags⟩
  · rintro ⟨nonempty, rfl, rfl, tags⟩
    exact ⟨items, request, nonempty, tags⟩

theorem tagsOf_decoded {tags : List NeuJsonTag} (are : List.Forall₂ (TagOf casts) items tags) :
    items.mapM (fun item => neuJsonDecodeTagJson casts (some item)) = .ok tags := by
  induction are with
  | nil => rfl
  | cons is _ ih =>
    rw [List.mapM_cons, is.decoded, ih]
    rfl

theorem tagsOf_exists : (∃ tags, List.Forall₂ (TagOf casts) items tags) ↔
    ¬ ∃ item ∈ items, ¬ ∃ tag, TagOf casts item tag := by
  push Not
  constructor
  · rintro ⟨tags, are⟩ item inside
    induction are with
    | nil => cases inside
    | cons is _ ih =>
      obtain rfl | later := List.mem_cons.1 inside
      · exact ⟨_, is⟩
      · exact ih later
  · intro each
    induction items with
    | nil => exact ⟨[], .nil⟩
    | cons item rest ih =>
      obtain ⟨⟨tag, is⟩, further⟩ := List.forall_mem_cons.1 each
      obtain ⟨tags, are⟩ := ih further
      exact ⟨tag :: tags, .cons is are⟩

theorem plainLoaded_array (request : Request json node group (.array items)) :
    plainLoaded casts json = if Blocks.arrayLen items ≤ 0 then .error .failed
      else (plainTags casts items (Blocks.arrayLen items)).map fun tags => ⟨node, group, tags⟩ := by
  rw [plainLoaded, decodeRequest_ok request]
  dsimp only
  rw [plainArray]
  split <;> rfl

theorem arrayLen_def (items : List Json) :
    Blocks.arrayLen items = (items.length : Int).bmod (2 ^ 32) := by
  unfold Blocks.arrayLen
  rfl

theorem arrayLen_within (some' : 0 < Blocks.arrayLen items) :
    (Blocks.arrayLen items).toNat ≤ items.length ∧ (Blocks.arrayLen items).toNat < 2 ^ 31 := by
  have len := arrayLen_def items
  rw [Int.bmod_def] at len
  generalize Blocks.arrayLen items = n at *
  omega

theorem arrayLen_short (short : items.length < 2 ^ 31) : Blocks.arrayLen items = items.length := by
  have len := arrayLen_def items
  rw [Int.bmod_def] at len
  generalize Blocks.arrayLen items = n at *
  omega

theorem decodesTags_short (request : Request json node group (.array items))
    (loaded : loads buf = some json) (few : Blocks.arrayLen items ≤ 0) :
    DecodesTags loads casts (Blocks.decodeTagsReq loads casts) buf ↔
      (∃ req, AsksTags casts json req ∧ req.tags.length < 2 ^ 31) ∨ RefusedTags casts items := by
  have asks (req : NeuJsonAddTagsReq) := @asksTags_array casts _ _ _ _ req request
  have outcome := @plainLoaded_array casts _ _ _ _ request
  rw [if_pos few] at outcome
  rw [decodesTags_failed loaded outcome]
  constructor
  · intro nothing
    by_cases empty : items = []
    · exact .inr (.inl empty)
    · refine .inr (.inr (.inl ⟨few, ?_⟩))
      by_contra all
      obtain ⟨tags, are⟩ := tagsOf_exists.2 all
      exact nothing ⟨⟨node, group, tags⟩, (asks _).2 ⟨empty, rfl, rfl, are⟩⟩
  · rintro (⟨req, asked, below⟩ | refused) ⟨req', asked'⟩
    · obtain ⟨nonempty, _, _, are⟩ := (asks req).1 asked
      have short : items.length < 2 ^ 31 := are.length_eq ▸ below
      rw [arrayLen_short short] at few
      exact nonempty (List.eq_nil_of_length_eq_zero (by omega))
    · obtain ⟨nonempty, _, _, are⟩ := (asks req').1 asked'
      obtain empty | ⟨_, bad⟩ | ⟨front, item, rest, split, _⟩ := refused
      · exact nonempty empty
      · exact tagsOf_exists.1 ⟨_, are⟩ bad
      · rw [Int.toNat_of_nonpos few, List.take_zero] at split
        simp at split

theorem plainTags_failed {len : Int} : plainTags casts items len = .error .failed ↔
    ∃ front item rest, items.take len.toNat = front ++ item :: rest ∧
      (∀ other ∈ front, AcceptedTag other) ∧ RefusedTag item := by
  have accepted (item : Json) :
      (∃ tag, neuJsonDecodeTagJson casts (some item) = .ok tag) ↔ AcceptedTag item := by
    cases tag_ends casts item with
    | accepted tag ran accepts => exact iff_of_true ⟨tag, ran⟩ accepts
    | refused ran rejected => exact iff_of_false (fun ⟨_, ok⟩ => by cases ran.symm.trans ok) rejected
    | faulty ran rejected => exact iff_of_false (fun ⟨_, ok⟩ => by cases ran.symm.trans ok) rejected
  have refused (item : Json) :
      neuJsonDecodeTagJson casts (some item) = .error .failed ↔ RefusedTag item := by
    cases tag_ends casts item with
    | accepted tag ran _ kept => exact iff_of_false (fun failed => by cases ran.symm.trans failed) kept
    | refused ran _ refuses => exact iff_of_true ran refuses
    | faulty ran _ kept => exact iff_of_false (fun failed => by cases ran.symm.trans failed) kept
  rw [plainTags, mapM_error_iff]
  simp only [accepted, refused]

theorem decodesTags_long (request : Request json node group (.array items))
    (loaded : loads buf = some json) (some' : 0 < Blocks.arrayLen items) :
    DecodesTags loads casts (Blocks.decodeTagsReq loads casts) buf ↔
      (∃ req, AsksTags casts json req ∧ req.tags.length < 2 ^ 31) ∨ RefusedTags casts items := by
  have asks (req : NeuJsonAddTagsReq) := @asksTags_array casts _ _ _ _ req request
  have outcome := @plainLoaded_array casts _ _ _ _ request
  obtain ⟨within, below⟩ := arrayLen_within some'
  have nonempty : items ≠ [] := by
    rintro rfl
    have len : Blocks.arrayLen [] = 0 := arrayLen_short (by decide)
    omega
  have refuses : RefusedTags casts items ↔
      plainTags casts items (Blocks.arrayLen items) = .error .failed := by
    rw [RefusedTags, plainTags_failed, or_iff_right nonempty, or_iff_right]
    exact fun few => absurd few.1 (Int.not_le.2 some')
  -- Where the document asks for tags, the first ones are decoded as what they are.
  have decoded {tags : List NeuJsonTag} (are : List.Forall₂ (TagOf casts) items tags) :
      plainTags casts items (Blocks.arrayLen items) =
        .ok (tags.take (Blocks.arrayLen items).toNat) :=
    tagsOf_decoded (List.forall₂_take _ are)
  rw [if_neg (Int.not_le.2 some')] at outcome
  rw [refuses]
  cases plain : plainTags casts items (Blocks.arrayLen items) with
  | error e =>
    have nothing : ¬ ∃ req, AsksTags casts json req := by
      rintro ⟨req, asked⟩
      cases plain.symm.trans (decoded ((asks req).1 asked).2.2.2)
    have none : ¬ ∃ req, AsksTags casts json req ∧ req.tags.length < 2 ^ 31 :=
      fun ⟨req, asked, _⟩ => nothing ⟨req, asked⟩
    rw [plain] at outcome
    cases e with
    | failed => exact iff_of_true ((decodesTags_failed loaded outcome).2 nothing) (.inr rfl)
    | crashed =>
      refine iff_of_false (decodesTags_crashed loaded outcome) ?_
      rintro (asked | failed)
      · exact none asked
      · cases failed
  | ok tags =>
    rw [plain] at outcome
    rw [decodesTags_ok loaded outcome, or_iff_left nofun]
    constructor
    · intro exact'
      have asked := (exact' _).1 rfl
      have are := ((asks _).1 asked).2.2.2
      have taken := Except.ok.inj (plain.symm.trans (decoded are))
      refine ⟨_, asked, ?_⟩
      change tags.length < 2 ^ 31
      have length := congrArg List.length taken
      rw [List.length_take] at length
      omega
    · rintro ⟨req, asked, short⟩
      have are := ((asks req).1 asked).2.2.2
      have all : items.length < 2 ^ 31 := are.length_eq ▸ short
      have length : (Blocks.arrayLen items).toNat = items.length := by
        rw [arrayLen_short all, Int.toNat_natCast]
      intro req'
      constructor
      · rintro rfl
        have taken := Except.ok.inj (plain.symm.trans (decoded are))
        rw [length, are.length_eq, List.take_length] at taken
        exact (asks _).2 ⟨nonempty, rfl, rfl, taken ▸ are⟩
      · intro asked'
        obtain ⟨_, rfl, rfl, are'⟩ := (asks req').1 asked'
        have taken := Except.ok.inj (plain.symm.trans (decoded are'))
        rw [length, are'.length_eq, List.take_length] at taken
        rw [taken]

theorem decodes_body (loads : CStr → Option Json) (casts : CastOps) (buf : CStr) :
    DecodesTags loads casts (Blocks.decodeTagsReq loads casts) buf ↔ CleanBody loads casts buf := by
  cases loaded : loads buf with
  | none =>
    refine iff_of_false (decodesTags_faults (body_unloaded casts loaded)) ?_
    rintro ⟨json, there, _⟩
    cases loaded.symm.trans there
  | some json =>
    have clean : CleanBody loads casts buf ↔
        (∃ req, AsksTags casts json req ∧ req.tags.length < 2 ^ 31) ∨
          RefusedAtOnce json (RefusedTags casts) := by
      rw [CleanBody, loaded]
      simp
    have array : (∃ req, AsksTags casts json req) → GivesArray json :=
      fun ⟨_, items, request, _⟩ => ⟨_, _, items, request⟩
    rw [clean]
    apply request_decided casts
    · exact fun ⟨req, asks, _⟩ => array ⟨req, asks⟩
    · intro ran nothing
      have outcome : plainLoaded casts json = .error .failed := by rw [plainLoaded, ran]
      exact (decodesTags_failed loaded outcome).2 (mt array nothing)
    · intro ran
      exact decodesTags_crashed loaded (by rw [plainLoaded, ran])
    · intro node group tags request different nothing
      have outcome : plainLoaded casts json = .error .failed := by
        rw [plainLoaded, decodeRequest_ok request]
        cases tags with
        | array items => exact absurd rfl (different items)
        | _ => rfl
      exact (decodesTags_failed loaded outcome).2 (mt array nothing)
    · intro node group items request
      by_cases few : Blocks.arrayLen items ≤ 0
      · exact decodesTags_short request loaded few
      · exact decodesTags_long request loaded (Int.not_le.1 few)

theorem tags_requests (loads : CStr → Option Json) (casts : CastOps) (buf : CStr) :
    (DecodesTags loads casts (Blocks.neuJsonDecodeAddTagsReq loads casts) buf ↔
        CleanBody loads casts buf) ∧
      (DecodesTags loads casts (Blocks.neuJsonDecodeUpdateTagsReq loads casts) buf ↔
        CleanBody loads casts buf) :=
  ⟨decodes_body loads casts buf, decodes_body loads casts buf⟩

theorem tags_requests_text :
    ¬ DecodesTags (fun _ => none) noCasts (Blocks.neuJsonDecodeAddTagsReq (fun _ => none) noCasts)
        (.lit "\x7b") ∧
      ¬ DecodesTags (fun _ => none) noCasts
        (Blocks.neuJsonDecodeUpdateTagsReq (fun _ => none) noCasts) (.lit "\x7b") := by
  have faults := @body_unloaded (fun _ => none) (.lit "\x7b") noCasts rfl
  exact ⟨decodesTags_faults faults, decodesTags_faults faults⟩

end

end

end Cpm
