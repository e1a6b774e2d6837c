import Cpm.Lib.Decode
import Cpm.Rest.Request
import Cpm.Rest.TagJson

/-! The decoder of batch writes, from `neu_json_rw.c`, with the places of `tags` that it goes to.
The index of the decoding loop is also that of the loop which cleans up. -/
namespace Cpm

open Lib Lib.Decode

structure NeuJsonWriteTagsElem where
  tag : Option CStr
  value : NeuJsonValue

structure NeuJsonWriteTagsReq where
  group : CStr
  node : CStr
  nTag : Int
  tags : Option (List NeuJsonWriteTagsElem)

def writeTagElems : List NeuJsonElem := [required "tag" .str, required "value" .undefine]

def writeTagsElem : List (Option NeuJsonValue) → NeuJsonWriteTagsElem
  | [tag, value] => ⟨textOf tag, value.getD .undefine⟩
  | _ => ⟨none, .undefine⟩

/-- `req->tags[i]`. There is nothing outside the block, nor behind NULL. -/
def tagsAt (tags : Option (List NeuJsonWriteTagsElem)) (i : Int) : Decoded NeuJsonWriteTagsElem :=
  match tags.bind fun tags => if 0 ≤ i then tags[i.toNat]? else none with
  | some elem => .ok elem
  | none => .error .crashed

/-- `while (i-- >= 0)` from `i = k - 1` on, up to the value of `i` behind it. -/
def cleanLoop (tags : Option (List NeuJsonWriteTagsElem)) : Nat → Decoded Int
  | 0 => .ok (-2)
  | k + 1 => do
    let _ ← tagsAt tags (k - 1)
    cleanLoop tags k

section
variable (casts : CastOps) (json : Json) (nTag : Int)

/-- The loop over the tags; the first argument bounds its passes. After a failure it goes on from
where the cleaning loop left the index. -/
def decodeTagsLoop : Nat → Int → Option (List NeuJsonWriteTagsElem) →
    Option (Decoded (Option (List NeuJsonWriteTagsElem)))
  | 0, _, _ => none
  | passes + 1, i, tags =>
    if i < nTag then
      let (values, ended) := neuJsonDecodeArrayByJson casts json "tags" i writeTagElems
      if ended = some .crashed then some (.error .crashed)
      else
        match tagsAt tags i with
        | .error e => some (.error e)
        | .ok _ =>
          let tags := tags.map fun tags => tags.set i.toNat (writeTagsElem values)
          if ended = none then decodeTagsLoop passes (i + 1) tags
          else
            match cleanLoop tags (i + 1).toNat with
            | .error e => some (.error e)
            | .ok i => decodeTagsLoop passes (i + 1) none
    else some (.ok tags)

end

/-- The result is that of `neu_json_decode_write_tags_req_json` too, which keeps the request if and
only if it is complete. -/
def decodeWriteTagsReqJson (casts : CastOps) (passes : Nat) (json : Json) :
    Option (Decoded NeuJsonWriteTagsReq) :=
  match neuJsonDecodeByJson casts (some json) requestElems with
  | .error e => some (.error e)
  | .ok [some (.str node), some (.str group), _] =>
    let nTag := neuJsonDecodeArraySizeByJson json "tags"
    if nTag ≤ 0 then some (.error .failed)
    else
      let cleared := List.replicate nTag.toNat ⟨none, .undefine⟩
      (decodeTagsLoop casts json nTag passes 0 (some cleared)).map fun ended =>
        ended.map fun tags => ⟨group, node, nTag, tags⟩
  | .ok _ => some (.error .failed)

/- What a batch has to be. -/

/-- The entry has a text as its tag and a value that can be decoded. -/
def AsksWrite (casts : CastOps) (item : Json) (elem : NeuJsonWriteTagsElem) : Prop :=
  ∃ text, jsonObjectGet (some item) "tag" = some (.string text) ∧ elem.tag = some text ∧
    decodeObject casts item (required "value" .undefine) = .ok (some elem.value)

def AsksBatch (casts : CastOps) (json : Json) (req : NeuJsonWriteTagsReq) : Prop :=
  ∃ items tags, Request json req.node req.group (.array items) ∧ items ≠ [] ∧
    List.Forall₂ (AsksWrite casts) items tags ∧ req.nTag = items.length ∧ req.tags = some tags

/-- The decoder ends, with the batch that the document asks for, or with -1 if it asks for none. -/
def DecodesBatch (casts : CastOps) (json : Json) : Prop :=
  ∃ passes outcome, decodeWriteTagsReqJson casts passes json = some outcome ∧
    (∀ req, outcome = .ok req ↔ AsksBatch casts json req) ∧
    ((¬ ∃ req, AsksBatch casts json req) → outcome = .error .failed)

def RefusedLength (casts : CastOps) (items : List Json) : Prop :=
  items = [] ∨ (items.length : Int).bmod (2 ^ 32) ≤ 0 ∧
    ∃ item ∈ items, ¬ ∃ elem, AsksWrite casts item elem

/- How the decoder ends. -/

def decodeEntry (casts : CastOps) (item : Json) : Option NeuJsonWriteTagsElem :=
  match decodeElems casts item writeTagElems with
  | (values, none) => some (writeTagsElem values)
  | (_, some _) => none

section
variable {casts : CastOps} {json item : Json} {items : List Json} {nTag : Int}
  {elem : NeuJsonWriteTagsElem} {tags : Option (List NeuJsonWriteTagsElem)}
  {req : NeuJsonWriteTagsReq} {outcome : Decoded NeuJsonWriteTagsReq}

theorem decodeObject_value {value : Option NeuJsonValue}
    (ok : decodeObject casts item (required "value" .undefine) = .ok value) :
    ∃ found, value = some found := by
  rw [decodeObject] at ok
  split at ok
  · cases ok
  · next ob _ =>
    cases decoded : decodeAs casts ob (resolved (required "value" .undefine).type ob) with
    | error e =>
      rw [decoded] at ok
      cases ok
    | ok found =>
      rw [decoded] at ok
      cases ok
      exact ⟨found, rfl⟩

theorem asksWrite_iff : AsksWrite casts item elem ↔ decodeEntry casts item = some elem := by
  unfold AsksWrite decodeEntry
  simp only [writeTagElems, decodeElems]
  cases tag : decodeObject casts item (required "tag" .str) with
  | error e =>
    refine iff_of_false ?_ fun same => by cases same
    rintro ⟨text, present, _⟩
    cases tag.symm.trans (decodeObject_str_ok.2 ⟨text, present, rfl⟩)
  | ok found =>
    obtain ⟨text, present, rfl⟩ := decodeObject_str_ok.1 tag
    simp only [present, Option.some.injEq, Json.string.injEq]
    cases value : decodeObject casts item (required "value" .undefine) with
    | error e =>
      refine iff_of_false ?_ fun same => by cases same
      rintro ⟨_, _, _, ok⟩
      cases ok
    | ok found =>
      obtain ⟨found, rfl⟩ := decodeObject_value value
      constructor
      · rintro ⟨_, rfl, named, valued⟩
        cases valued
        simp only [writeTagsElem, textOf, Option.getD_some, ← named]
      · rintro ⟨_, rfl⟩
        exact ⟨text, rfl, rfl, rfl⟩

theorem asksBatch_iff : AsksBatch casts json req ↔
    ∃ items tags, Request json req.node req.group (.array items) ∧ items ≠ [] ∧
      items.mapM (decodeEntry casts) = some tags ∧ req.nTag = items.length ∧ req.tags = some tags := by
  have same : AsksWrite casts = fun item elem => decodeEntry casts item = some elem :=
    funext₂ fun _ _ => propext asksWrite_iff
  simp only [AsksBatch, same, mapM_forall₂]

theorem tagsAt_crashed (fails : ¬ ∃ elem, tagsAt tags nTag = .ok elem) :
    tagsAt tags nTag = .error .crashed := by
  unfold tagsAt at fails ⊢
  split
  · next here =>
    rw [here] at fails
    exact absurd ⟨_, rfl⟩ fails
  · rfl

theorem cleanLoop_crashed (tags : Option (List NeuJsonWriteTagsElem)) (k : Nat) :
    cleanLoop tags (k + 1) = .error .crashed := by
  induction k with
  | zero =>
    have before : tagsAt tags ((0 : Nat) - 1) = .error .crashed := by
      apply tagsAt_crashed
      rintro ⟨elem, ok⟩
      cases tags <;> cases ok
    rw [cleanLoop, before]
    rfl
  | succ k ih =>
    rw [cleanLoop, ih]
    by_cases here : ∃ elem, tagsAt tags ((k + 1 : Nat) - 1) = .ok elem
    · obtain ⟨elem, here⟩ := here
      rw [here]
      rfl
    · rw [tagsAt_crashed here]
      rfl

theorem decodeTagsLoop_mono {passes more : Nat} {i : Int}
    {outcome : Decoded (Option (List NeuJsonWriteTagsElem))}
    (ran : decodeTagsLoop casts json nTag passes i tags = some outcome) (le : passes ≤ more) :
    decodeTagsLoop casts json nTag more i tags = some outcome := by
  induction passes generalizing more i tags with
  | zero => cases ran
  | succ passes ih =>
    obtain ⟨more, rfl⟩ : ∃ fewer, more = fewer + 1 := ⟨more - 1, by omega⟩
    have le : passes ≤ more := Nat.le_of_succ_le_succ le
    unfold decodeTagsLoop at ran ⊢
    split
    · next inside =>
      rw [if_pos inside] at ran
      dsimp only at ran ⊢
      split
      · next crashed => rwa [if_pos crashed] at ran
      · next sound =>
        rw [if_neg sound] at ran
        split at ran
        · exact ran
        · split at ran
          · next decoded =>
            rw [if_pos decoded]
            exact ih ran le
          · next refused =>
            rw [if_neg refused]
            split at ran
            · exact ran
            · exact ih ran le
    · next behind => rwa [if_neg behind] at ran

theorem decodeEntry_of_ended {values : List (Option NeuJsonValue)} {ended : Option DecodeError}
    (decoded : decodeElems casts item writeTagElems = (values, ended)) :
    decodeEntry casts item = if ended = none then some (writeTagsElem values) else none := by
  rw [decodeEntry, decoded]
  cases ended <;> rfl

theorem arrayByJson_at {done rest : List Json} (elems : List NeuJsonElem)
    (array : jsonObjectGet (some json) "tags" = some (.array (done ++ item :: rest))) :
    neuJsonDecodeArrayByJson casts json "tags" done.length elems = decodeElems casts item elems := by
  have here : jsonArrayGet (.array (done ++ item :: rest)) done.length = some item := by
    simp [jsonArrayGet]
  rw [neuJsonDecodeArrayByJson, array, Option.bind_some, here]

def blank (n : Nat) : List NeuJsonWriteTagsElem := List.replicate n ⟨none, .undefine⟩

/-- Behind the entries decoded so far, the loop decodes the others, or steps out of the array at the
first that it cannot decode. -/
theorem decodeTagsLoop_reads {done rest beyond : List Json} {front : List NeuJsonWriteTagsElem}
    (array : jsonObjectGet (some json) "tags" = some (.array (done ++ rest ++ beyond)))
    (count : nTag = (done ++ rest).length) (filled : front.length = done.length) :
    decodeTagsLoop casts json nTag (rest.length + 1) done.length (some (front ++ blank rest.length)) =
      some (match rest.mapM (decodeEntry casts) with
        | some elems => .ok (some (front ++ elems))
        | none => .error .crashed) := by
  induction rest generalizing done front with
  | nil =>
    have behind : ¬ (done.length : Int) < nTag := by simp [count]
    rw [decodeTagsLoop, if_neg behind]
    rfl
  | cons item rest ih =>
    have inside : (done.length : Int) < nTag := by
      rw [count, List.length_append, List.length_cons]
      omega
    have here := @arrayByJson_at casts json _ _ _ writeTagElems
      (by rwa [List.append_assoc, List.cons_append] at array)
    have place : tagsAt (some (front ++ blank (rest.length + 1))) done.length =
        .ok ⟨none, .undefine⟩ := by
      simp [tagsAt, blank, List.replicate_succ, ← filled]
    rw [List.length_cons, decodeTagsLoop, if_pos inside, here, List.mapM_cons]
    cases decoded : decodeElems casts item writeTagElems with
    | mk values ended =>
      rw [decodeEntry_of_ended decoded]
      by_cases complete : ended = none
      · subst complete
        have next := @ih (done ++ [item]) (front ++ [writeTagsElem values])
          (by simpa using array) (by simpa using count) (by simp [filled])
        have set : (front ++ blank (rest.length + 1)).set done.length (writeTagsElem values) =
            front ++ [writeTagsElem values] ++ blank rest.length := by
          rw [← filled, List.set_append_right _ _ (Nat.le_refl _), Nat.sub_self, blank,
            List.replicate_succ, List.set_cons_zero, List.append_assoc]
          rfl
        rw [List.length_append, List.length_singleton, Nat.cast_add_one] at next
        simp only [reduceCtorEq, if_false, if_true, place, Option.map_some, Int.toNat_natCast, set,
          next]
        cases rest.mapM (decodeEntry casts) with
        | none => rfl
        | some elems => simp
      · have clean : cleanLoop ((some (front ++ blank (rest.length + 1))).map fun tags =>
            tags.set (done.length : Int).toNat (writeTagsElem values))
            ((done.length : Int) + 1).toNat = .error .crashed := by
          have counter : ((done.length : Int) + 1).toNat = done.length + 1 := by omega
          rw [counter]
          exact cleanLoop_crashed _ _
        simp only [place, clean, if_neg complete]
        split <;> rfl

theorem decodeWriteTags_mono {passes more : Nat}
    (ran : decodeWriteTagsReqJson casts passes json = some outcome) (le : passes ≤ more) :
    decodeWriteTagsReqJson casts more json = some outcome := by
  unfold decodeWriteTagsReqJson at ran ⊢
  generalize neuJsonDecodeByJson casts (some json) requestElems = decoded at ran ⊢
  split at ran
  · exact ran
  · dsimp only at ran ⊢
    split
    · next none => rwa [if_pos none] at ran
    · next some =>
      rw [if_neg some] at ran
      obtain ⟨ended, loop, same⟩ := Option.map_eq_some_iff.1 ran
      rw [decodeTagsLoop_mono loop le, Option.map_some, same]
  · exact ran

/-- However many passes it is given, the decoder ends in one way. -/
theorem decodesBatch_ended {passes : Nat}
    (ran : decodeWriteTagsReqJson casts passes json = some outcome) :
    DecodesBatch casts json ↔ (∀ req, outcome = .ok req ↔ AsksBatch casts json req) ∧
      ((¬ ∃ req, AsksBatch casts json req) → outcome = .error .failed) := by
  constructor
  · rintro ⟨passes', outcome', ran', exact', refuses⟩
    have long := decodeWriteTags_mono ran (Nat.le_max_left passes passes')
    have long' := decodeWriteTags_mono ran' (Nat.le_max_right passes passes')
    cases long.symm.trans long'
    exact ⟨exact', refuses⟩
  · exact fun ends => ⟨passes, outcome, ran, ends⟩

theorem decodesBatch_failed {passes : Nat}
    (ran : decodeWriteTagsReqJson casts passes json = some (.error .failed)) :
    DecodesBatch casts json ↔ ¬ ∃ req, AsksBatch casts json req := by
  rw [decodesBatch_ended ran]
  constructor
  · rintro ⟨exact', _⟩ ⟨req, asks⟩
    cases (exact' req).2 asks
  · intro none
    exact ⟨fun req => iff_of_false nofun fun asks => none ⟨req, asks⟩, fun _ => rfl⟩

theorem decodesBatch_crashed {passes : Nat}
    (ran : decodeWriteTagsReqJson casts passes json = some (.error .crashed)) :
    ¬ DecodesBatch casts json := by
  intro decodes
  obtain ⟨exact', refuses⟩ := (decodesBatch_ended ran).1 decodes
  have none : ¬ ∃ req, AsksBatch casts json req := by
    rintro ⟨req, asks⟩
    cases (exact' req).2 asks
  cases refuses none

theorem entries_none : items.mapM (decodeEntry casts) = none ↔
    ∃ item ∈ items, ¬ ∃ elem, AsksWrite casts item elem := by
  simp only [asksWrite_iff]
  constructor
  · intro none
    by_contra all
    push Not at all
    obtain ⟨tags, decoded⟩ := mapM_total all
    cases none.symm.trans decoded
  · rintro ⟨item, inside, undecoded⟩
    exact mapM_none inside (Option.eq_none_iff_forall_ne_some.2 fun elem decoded => undecoded ⟨elem, decoded⟩)

section
variable {node group : CStr} {object : Json}

theorem decodeWriteTags_size (request : Request json node group object) (passes : Nat) :
    decodeWriteTagsReqJson casts passes json =
      if neuJsonDecodeArraySizeByJson json "tags" ≤ 0 then some (.error .failed)
      else
        (decodeTagsLoop casts json (neuJsonDecodeArraySizeByJson json "tags") passes 0
          (some (blank (neuJsonDecodeArraySizeByJson json "tags").toNat))).map fun ended =>
            ended.map fun tags =>
              ⟨group, node, neuJsonDecodeArraySizeByJson json "tags", tags⟩ := by
  rw [decodeWriteTagsReqJson, decodeRequest_ok request]
  rfl

theorem asksBatch_array (request : Request json node group (.array items)) :
    AsksBatch casts json req ↔ items ≠ [] ∧ ∃ tags, items.mapM (decodeEntry casts) = some tags ∧
      req = ⟨group, node, items.length, some tags⟩ := by
  rw [asksBatch_iff]
  constructor
  · rintro ⟨_, tags, request', nonempty, decoded, count, same⟩
    obtain ⟨rfl, rfl, array⟩ := request.same request'
    cases array
    refine ⟨nonempty, tags, decoded, ?_⟩
    rw [← count, ← same]
  · rintro ⟨nonempty, tags, decoded, rfl⟩
    exact ⟨items, tags, request, nonempty, decoded, rfl, rfl⟩

theorem decodeWriteTags_array (request : Request json node group (.array items)) {n : Nat}
    (count : (items.length : Int).bmod (2 ^ 32) = n) (some' : 0 < n) (within : n ≤ items.length) :
    decodeWriteTagsReqJson casts (n + 1) json =
      some (match (items.take n).mapM (decodeEntry casts) with
        | some elems => .ok ⟨group, node, n, some elems⟩
        | none => .error .crashed) := by
  have size : neuJsonDecodeArraySizeByJson json "tags" = n := by
    rw [neuJsonDecodeArraySizeByJson, request.tags]
    exact count
  have length : (items.take n).length = n := List.length_take_of_le within
  have whole : [] ++ items.take n ++ items.drop n = items := List.take_append_drop n items
  have loop := @decodeTagsLoop_reads casts json n [] (items.take n) (items.drop n) []
    (whole.symm ▸ request.tags) (by rw [List.nil_append, length]) rfl
  rw [length, List.length_nil, List.nil_append, Nat.cast_zero] at loop
  rw [decodeWriteTags_size request, size, if_neg (by omega), Int.toNat_natCast, loop]
  cases (items.take n).mapM (decodeEntry casts) <;> rfl

theorem decodesBatch_short (request : Request json node group (.array items))
    (few : (items.length : Int).bmod (2 ^ 32) ≤ 0) :
    DecodesBatch casts json ↔
      (∃ req, AsksBatch casts json req ∧ req.nTag < 2 ^ 31) ∨ RefusedLength casts items := by
  have asks (req : NeuJsonWriteTagsReq) := @asksBatch_array casts _ _ req _ _ request
  rw [RefusedLength, ← entries_none]
  have size : neuJsonDecodeArraySizeByJson json "tags" ≤ 0 := by
    rw [neuJsonDecodeArraySizeByJson, request.tags]
    exact few
  have failed := @decodeWriteTags_size casts _ _ _ _ request 0
  rw [if_pos size] at failed
  rw [decodesBatch_failed failed]
  constructor
  · intro nothing
    refine .inr (or_iff_not_imp_left.2 fun nonempty => ⟨few, ?_⟩)
    cases decoded : items.mapM (decodeEntry casts) with
    | none => rfl
    | some tags => exact absurd ⟨_, (asks _).2 ⟨nonempty, tags, decoded, rfl⟩⟩ nothing
  · rintro (⟨req, asked, below⟩ | refused) ⟨req', asked'⟩
    · obtain ⟨nonempty, tags, _, rfl⟩ := (asks req).1 asked
      have positive := List.length_pos_iff.2 nonempty
      change (items.length : Int) < 2 ^ 31 at below
      rw [Int.bmod_eq_of_le (by omega) (by omega)] at few
      omega
    · obtain ⟨nonempty, tags, decoded, rfl⟩ := (asks req').1 asked'
      obtain empty | ⟨_, none⟩ := refused
      · exact nonempty empty
      · cases none.symm.trans decoded

theorem decodesBatch_long (request : Request json node group (.array items))
    (some' : 0 < (items.length : Int).bmod (2 ^ 32)) :
    DecodesBatch casts json ↔
      (∃ req, AsksBatch casts json req ∧ req.nTag < 2 ^ 31) ∨ RefusedLength casts items := by
  have asks (req : NeuJsonWriteTagsReq) := @asksBatch_array casts _ _ req _ _ request
  obtain ⟨n, count⟩ := Int.eq_ofNat_of_zero_le (Int.le_of_lt some')
  rw [count] at some'
  have within : n ≤ items.length ∧ n < 2 ^ 31 ∧ (items.length < 2 ^ 31 → n = items.length) := by
    rw [Int.bmod_def] at count
    omega
  have nonempty : items ≠ [] := List.ne_nil_of_length_pos (by omega)
  have ran := @decodeWriteTags_array casts _ _ _ _ request _ count (by omega) within.1
  have refused : ¬ RefusedLength casts items := by
    rintro (empty | ⟨few, _⟩)
    · exact nonempty empty
    · rw [count] at few
      omega
  rw [or_iff_left refused]
  cases decoded : (items.take n).mapM (decodeEntry casts) with
  | none =>
    rw [decoded] at ran
    refine iff_of_false (decodesBatch_crashed ran) ?_
    rintro ⟨req, asked, below⟩
    obtain ⟨_, tags, all, rfl⟩ := (asks req).1 asked
    have short : items.length < 2 ^ 31 := Int.ofNat_lt.1 below
    rw [within.2.2 short, List.take_length, all] at decoded
    cases decoded
  | some tags =>
    rw [decoded] at ran
    rw [decodesBatch_ended ran]
    constructor
    · rintro ⟨exact', _⟩
      refine ⟨_, (exact' _).1 rfl, ?_⟩
      exact Int.ofNat_lt.2 within.2.1
    · rintro ⟨req, asked, below⟩
      obtain ⟨_, all, decodedAll, rfl⟩ := (asks req).1 asked
      have short : items.length < 2 ^ 31 := Int.ofNat_lt.1 below
      rw [within.2.2 short, List.take_length, decodedAll] at decoded
      cases decoded
      rw [← within.2.2 short] at asked
      refine ⟨fun req => ?_, fun nothing => absurd ⟨_, asked⟩ nothing⟩
      constructor
      · intro same
        cases same
        exact asked
      · intro again
        obtain ⟨_, tags, decodedAgain, rfl⟩ := (asks req).1 again
        cases decodedAll.symm.trans decodedAgain
        rw [within.2.2 short]

theorem decodesBatch_array (request : Request json node group (.array items)) :
    DecodesBatch casts json ↔
      (∃ req, AsksBatch casts json req ∧ req.nTag < 2 ^ 31) ∨ RefusedLength casts items := by
  by_cases few : (items.length : Int).bmod (2 ^ 32) ≤ 0
  · exact decodesBatch_short request few
  · exact decodesBatch_long request (Int.not_le.1 few)

end

theorem decodeWriteTags_error {e : DecodeError}
    (stopped : neuJsonDecodeByJson casts (some json) requestElems = .error e) :
    decodeWriteTagsReqJson casts 0 json = some (.error e) := by
  rw [decodeWriteTagsReqJson, stopped]

theorem write_tags_batch (casts : CastOps) (json : Json) : DecodesBatch casts json ↔
    (∃ req, AsksBatch casts json req ∧ req.nTag < 2 ^ 31) ∨
      RefusedAtOnce json (RefusedLength casts) := by
  have array : (∃ req, AsksBatch casts json req) → GivesArray json :=
    fun ⟨_, items, _, request, _⟩ => ⟨_, _, items, request⟩
  apply request_decided casts
  · exact fun ⟨req, asks, _⟩ => array ⟨req, asks⟩
  · intro ran nothing
    exact (decodesBatch_failed (decodeWriteTags_error ran)).2 (mt array nothing)
  · exact fun ran => decodesBatch_crashed (decodeWriteTags_error ran)
  · intro node group tags request different nothing
    have size : neuJsonDecodeArraySizeByJson json "tags" ≤ 0 := by
      rw [neuJsonDecodeArraySizeByJson, request.tags]
      split
      · next items same => exact absurd (Option.some.inj same) (different items)
      · decide
    have ran := @decodeWriteTags_size casts _ _ _ _ request 0
    rw [if_pos size] at ran
    exact (decodesBatch_failed ran).2 (mt array nothing)
  · exact fun node group items => decodesBatch_array

/-- One entry without a tag: the index runs out of the array. -/
theorem write_tags_batch_entry :
    let json : Json := .object [("node", .string (.lit "n")), ("group", .string (.lit "g")),
      ("tags", .array [.object []])]
    decodeWriteTagsReqJson noCasts 2 json = some (.error .crashed) ∧ ¬ DecodesBatch noCasts json := by
  intro json
  have ran : decodeWriteTagsReqJson noCasts 2 json = some (.error .crashed) :=
    @decodeWriteTags_array _ _ [.object []] _ _ ⟨rfl, rfl, rfl⟩ 1 rfl (by decide) (by decide)
  exact ⟨ran, decodesBatch_crashed ran⟩

end

end Cpm
