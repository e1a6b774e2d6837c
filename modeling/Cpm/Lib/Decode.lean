import Mathlib.Data.List.Forall2

/-! Decoders that can fail, and arrays decoded one item after the other. -/
namespace Lib.Decode

variable {ι α β ε : Type}

theorem bind_ok {a : Except ε α} {next : α → Except ε β} {b : β} (ok : (a >>= next) = .ok b) :
    ∃ value, a = .ok value ∧ next value = .ok b := by
  cases a with
  | error e => cases ok
  | ok value => exact ⟨value, rfl, ok⟩

theorem mapM_each (decode : α → Except ε β) {encode : ι → α} {Same : ι → β → Prop} {items : List ι}
    (each : ∀ item ∈ items, ∃ value, decode (encode item) = .ok value ∧ Same item value) :
    ∃ values, (items.map encode).mapM decode = .ok values ∧ List.Forall₂ Same items values := by
  induction items with
  | nil => exact ⟨[], rfl, .nil⟩
  | cons item rest ih =>
    obtain ⟨value, decoded, same⟩ := each item List.mem_cons_self
    obtain ⟨values, others, alike⟩ := ih fun item inside => each item (List.mem_cons_of_mem _ inside)
    refine ⟨value :: values, ?_, .cons same alike⟩
    rw [List.map_cons, List.mapM_cons, decoded, others]
    rfl

theorem mapM_map {decode : α → Except ε β} {encode : ι → α} {meaning : ι → β} {items : List ι}
    (each : ∀ item ∈ items, decode (encode item) = .ok (meaning item)) :
    (items.map encode).mapM decode = .ok (items.map meaning) := by
  induction items with
  | nil => rfl
  | cons item rest ih =>
    have others := ih fun item inside => each item (List.mem_cons_of_mem _ inside)
    rw [List.map_cons, List.mapM_cons, each item List.mem_cons_self, others]
    rfl

/-- An array is decoded to what its items mean if and only if each of them is. -/
theorem mapM_meaning {decode : α → Except ε β} {encode : ι → α} {meaning : ι → β} {items : List ι} :
    (items.map encode).mapM decode = .ok (items.map meaning) ↔
      ∀ item ∈ items, decode (encode item) = .ok (meaning item) := by
  refine ⟨fun ok => ?_, mapM_map⟩
  induction items with
  | nil => exact List.forall_mem_nil _
  | cons item rest ih =>
    rw [List.map_cons, List.mapM_cons] at ok
    obtain ⟨value, decoded, further⟩ := bind_ok ok
    obtain ⟨values, others, same⟩ := bind_ok further
    cases same
    exact List.forall_mem_cons.2 ⟨decoded, ih others⟩

theorem mapM_inverse {decode : α → Except ε ι} {encode : ι → α} {items : List ι} :
    (items.map encode).mapM decode = .ok items ↔
      ∀ item ∈ items, decode (encode item) = .ok item := by
  have whole := @mapM_meaning ι α ι ε decode encode id items
  rwa [List.map_id] at whole

theorem forall₂_all {Same : α → β → Prop} {Good : α → Prop} {items : List α} {values : List β}
    (each : List.Forall₂ (fun item value => Same item value ↔ Good item) items values) :
    List.Forall₂ Same items values ↔ ∀ item ∈ items, Good item := by
  induction each with
  | nil => exact ⟨fun _ => List.forall_mem_nil _, fun _ => .nil⟩
  | cons same _ ih => rw [List.forall₂_cons, List.forall_mem_cons, same, ih]

theorem mapM_member {decode : α → Except ε β} {items : List α} {values : List β}
    (ok : items.mapM decode = .ok values) {item : α} (inside : item ∈ items) :
    ∃ value, decode item = .ok value := by
  induction items generalizing values with
  | nil => cases inside
  | cons first rest ih =>
    rw [List.mapM_cons] at ok
    obtain ⟨value, decoded, further⟩ := bind_ok ok
    obtain ⟨others, more, _⟩ := bind_ok further
    rcases List.mem_cons.1 inside with same | later
    · exact ⟨value, same ▸ decoded⟩
    · exact ih more later

/-- An array fails as the first of its items that cannot be decoded. -/
theorem mapM_error_iff {decode : α → Except ε β} {items : List α} {e : ε} :
    items.mapM decode = .error e ↔ ∃ front item rest, items = front ++ item :: rest ∧
      (∀ other ∈ front, ∃ value, decode other = .ok value) ∧ decode item = .error e := by
  induction items with
  | nil => exact iff_of_false (fun failed => by cases failed) fun ⟨front, _, _, empty, _⟩ => by simp at empty
  | cons first others ih =>
    rw [List.mapM_cons]
    cases decoded : decode first with
    | error e' =>
      constructor
      · intro failed
        cases failed
        exact ⟨[], first, others, rfl, List.forall_mem_nil _, decoded⟩
      · rintro ⟨front, item, rest, split, before, failed⟩
        cases front with
        | nil =>
          cases split
          exact congrArg (Except.error ∘ id) (Except.error.inj (decoded.symm.trans failed))
        | cons head front =>
          cases split
          obtain ⟨value, ok⟩ := before _ List.mem_cons_self
          cases decoded.symm.trans ok
    | ok value =>
      have same : (do let values ← others.mapM decode; pure (value :: values)) = .error e ↔
          others.mapM decode = .error e := by
        cases others.mapM decode with
        | error _ => exact Iff.rfl.trans ⟨fun h => by cases h; rfl, fun h => by cases h; rfl⟩
        | ok values => exact iff_of_false nofun nofun
      refine same.trans (ih.trans ?_)
      constructor
      · rintro ⟨front, item, rest, rfl, before, failed⟩
        exact ⟨first :: front, item, rest, rfl,
          List.forall_mem_cons.2 ⟨⟨value, decoded⟩, before⟩, failed⟩
      · rintro ⟨front, item, rest, split, before, failed⟩
        cases front with
        | nil =>
          cases split
          cases decoded.symm.trans failed
        | cons head front =>
          cases split
          exact ⟨front, item, rest, rfl, (List.forall_mem_cons.1 before).2, failed⟩

/- Partial functions on a list. -/

theorem mapM_eq_some_iff {f : α → Option β} {items : List α} {values : List β} :
    items.mapM f = some values ↔ items.map f = values.map some := by
  induction items generalizing values with
  | nil => cases values <;> simp
  | cons item rest ih =>
    rw [List.mapM_cons, Option.bind_eq_bind, Option.bind_eq_some_iff, List.map_cons]
    constructor
    · rintro ⟨value, here, further⟩
      obtain ⟨others, ran, same⟩ := Option.bind_eq_some_iff.1 further
      cases same
      rw [here, ih.1 ran, List.map_cons]
    · intro same
      obtain ⟨value, others, rfl, here, further⟩ := List.map_eq_cons_iff.1 same.symm
      exact ⟨value, here.symm, Option.bind_eq_some_iff.2 ⟨others, ih.2 further.symm, rfl⟩⟩

theorem mapM_forall₂ {f : α → Option β} {items : List α} {values : List β} :
    items.mapM f = some values ↔ List.Forall₂ (fun item value => f item = some value) items values := by
  rw [mapM_eq_some_iff, ← List.forall₂_eq_eq_eq, List.forall₂_map_left_iff, List.forall₂_map_right_iff]

theorem mapM_congr {f g : α → Option β} {items : List α}
    (same : ∀ item ∈ items, f item = g item) : items.mapM f = items.mapM g := by
  induction items with
  | nil => rfl
  | cons item rest ih =>
    obtain ⟨here, further⟩ := List.forall_mem_cons.1 same
    rw [List.mapM_cons, List.mapM_cons, here, ih further]

theorem mapM_total {f : α → Option β} {items : List α}
    (total : ∀ item ∈ items, ∃ value, f item = some value) :
    ∃ values, items.mapM f = some values := by
  induction items with
  | nil => exact ⟨[], rfl⟩
  | cons item rest ih =>
    obtain ⟨⟨value, here⟩, further⟩ := List.forall_mem_cons.1 total
    obtain ⟨values, ran⟩ := ih further
    refine ⟨value :: values, ?_⟩
    rw [List.mapM_cons, here, ran]
    rfl

theorem mapM_defined {f : α → Option β} {items : List α} {values : List β}
    (ran : items.mapM f = some values) {item : α} (inside : item ∈ items) :
    ∃ value, f item = some value := by
  have result : f item ∈ values.map some := mapM_eq_some_iff.1 ran ▸ List.mem_map_of_mem inside
  obtain ⟨value, _, same⟩ := List.mem_map.1 result
  exact ⟨value, same.symm⟩

theorem mapM_origin {f : α → Option β} {items : List α} {values : List β}
    (ran : items.mapM f = some values) {value : β} (inside : value ∈ values) :
    ∃ item ∈ items, f item = some value := by
  have result : some value ∈ items.map f := mapM_eq_some_iff.1 ran ▸ List.mem_map_of_mem inside
  exact List.mem_map.1 result

theorem mapM_none {f : α → Option β} {items : List α} {item : α} (inside : item ∈ items)
    (nothing : f item = none) : items.mapM f = none := by
  cases ran : items.mapM f with
  | none => rfl
  | some values =>
    obtain ⟨value, here⟩ := mapM_defined ran inside
    cases nothing.symm.trans here

theorem mapM_agree {f g : α → Option β} {items : List α} {values : List β}
    (ran : items.mapM f = some values) (ran' : items.mapM g = some values) :
    ∀ item ∈ items, f item = g item := by
  have same : items.map f = items.map g :=
    (mapM_eq_some_iff.1 ran).trans (mapM_eq_some_iff.1 ran').symm
  exact List.map_inj_left.1 same

theorem mapM_flatten (f : α → Option β) (items : List α) :
    (items.mapM fun item => (f item).map fun value => [value]).map List.flatten = items.mapM f := by
  induction items with
  | nil => rfl
  | cons item rest ih =>
    rw [List.mapM_cons, List.mapM_cons, ← ih]
    cases f item with
    | none => rfl
    | some value => cases rest.mapM fun item => (f item).map fun value => [value] <;> rfl

end Lib.Decode
