import Cpm.Persist.PathCat
import Cpm.Persist.TagRows

/-! `neu_persister_store_tags` call by call, with the counter beside the table, and exactly when it
keeps both or changes both. Transactions of SQLite are assumed to be correct. -/
namespace Cpm

open Lib

structure PutTagCalls where
  name : Bool
  address : Bool
  attributes : Bool
  precision : Bool
  type : Bool
  decimal : Bool
  description : Bool
  value : Bool
  step : Bool

def PutTagCalls.bound (calls : PutTagCalls) : Bool :=
  calls.name && calls.address && calls.attributes && calls.precision && calls.type && calls.decimal &&
    calls.description && calls.value

structure StoreTagsCalls where
  begin : Bool
  prepare : Bool
  driverName : Bool
  groupName : Bool
  tag : Nat → PutTagCalls
  commit : Bool

structure TagStore where
  table : TagTable
  tagCount : Int

namespace TagTable

def begin (table : TagTable) (ok : Bool) : Option TagTable :=
  if table.saved.isSome || !ok then none else some ⟨table.rows, some table.rows⟩

def insert (checks : TagRow → Bool) (table : TagTable) (row : TagRow) (ok : Bool) :
    Option TagTable :=
  if ok then (insertRow checks table.rows row).map fun rows => ⟨rows, table.saved⟩ else none

def commit (table : TagTable) (ok : Bool) : Option TagTable :=
  if ok then some ⟨table.rows, none⟩ else none

def rollback (table : TagTable) : TagTable := ⟨table.saved.getD table.rows, none⟩

end TagTable

namespace TagStore

/-- The number is taken as an `int`, and the sum is one. -/
def tagCountAdd (store : TagStore) (n : Nat) : TagStore :=
  { store with tagCount := (store.tagCount + asInt n).bmod (2 ^ 32) }

section
variable (j : AnyJansson) (casts : CastOps) (checks : TagRow → Bool) (driver group : CStr)

def putTags (calls : Nat → PutTagCalls) : Nat → List NeuDatatag → TagTable → TagTable × Int
  | _, [], table => (table, 0)
  | i, tag :: rest, table =>
    if !(calls i).bound then (table, -1)
    else match table.insert checks (rowOfTag j casts driver group tag) (calls i).step with
    | none => (table, -1)
    | some table => putTags calls (i + 1) rest table

def rolledBack (store : TagStore) (table : TagTable) : TagStore × Int :=
  ({ store with table := table.rollback }, NEU_ERR_EINTERNAL)

def neuPersisterStoreTags (store : TagStore) (tags : List NeuDatatag) (calls : StoreTagsCalls) :
    TagStore × Int :=
  match store.table.begin calls.begin with
  | none => (store, NEU_ERR_EINTERNAL)
  | some table =>
    if !(calls.prepare && calls.driverName && calls.groupName) then store.rolledBack table
    else
      let put := putTags j casts checks driver group calls.tag 0 tags table
      if put.2 ≠ 0 then store.rolledBack put.1
      else match put.1.commit calls.commit with
      | none => store.rolledBack put.1
      | some table => (tagCountAdd { store with table } tags.length, 0)

end

end TagStore

structure Transactional (j : AnyJansson) (casts : CastOps) (driver group : CStr)
    (tags : List NeuDatatag) (before : TagStore) (result : TagStore × Int) : Prop where
  kept : result.2 ≠ 0 → result.1 = before
  rows : result.2 = 0 →
    result.1.table = ⟨before.table.rows ++ tags.map (rowOfTag j casts driver group), none⟩
  count : result.2 = 0 → result.1.tagCount = before.tagCount + tags.length

structure Insertable (checks : TagRow → Bool) (rows new : List TagRow) : Prop where
  fresh : ∀ row ∈ new, ∀ old ∈ rows, old.key ≠ row.key
  distinct : (new.map TagRow.key).Nodup
  valid : ∀ row ∈ new, row.decimal.isSome = true ∧ checks row = true

structure GoesThrough (j : AnyJansson) (casts : CastOps) (checks : TagRow → Bool)
    (driver group : CStr) (tags : List NeuDatatag) (store : TagStore) (calls : StoreTagsCalls) :
    Prop where
  outside : store.table.saved = none
  begin : calls.begin = true
  prepare : (calls.prepare && calls.driverName && calls.groupName) = true
  bound : ∀ i < tags.length, (calls.tag i).bound = true ∧ (calls.tag i).step = true
  rows : Insertable checks store.table.rows (tags.map (rowOfTag j casts driver group))
  commit : calls.commit = true

theorem insertRow_iff {checks : TagRow → Bool} {rows rows' : List TagRow} {row : TagRow} :
    insertRow checks rows row = some rows' ↔
      ((∀ old ∈ rows, old.key ≠ row.key) ∧ row.decimal.isSome = true ∧ checks row = true) ∧
        rows' = rows ++ [row] := by
  rw [insertRow, Option.ite_none_left_eq_some, Option.some.injEq, eq_comm (a := rows ++ [row])]
  refine and_congr_left fun _ => ?_
  cases row.decimal <;> cases checks row <;> simp

theorem insertable_cons {checks : TagRow → Bool} {rows new : List TagRow} {row : TagRow} :
    Insertable checks rows (row :: new) ↔
      insertRow checks rows row = some (rows ++ [row]) ∧ Insertable checks (rows ++ [row]) new := by
  rw [insertRow_iff, and_iff_left rfl]
  constructor
  · rintro ⟨fresh, distinct, valid⟩
    rw [List.map_cons, List.nodup_cons] at distinct
    rw [List.forall_mem_cons] at fresh valid
    refine ⟨⟨fresh.1, valid.1⟩, fun next inside old before => ?_, distinct.2, valid.2⟩
    rcases List.mem_append.mp before with there | here
    · exact fresh.2 next inside old there
    · obtain rfl := List.mem_singleton.mp here
      exact fun same => distinct.1 (same ▸ List.mem_map_of_mem inside)
  · rintro ⟨⟨free, ok⟩, fresh, distinct, valid⟩
    refine ⟨List.forall_mem_cons.mpr ⟨free, fun next inside old before =>
      fresh next inside old (List.mem_append_left _ before)⟩, ?_, List.forall_mem_cons.mpr ⟨ok, valid⟩⟩
    rw [List.map_cons, List.nodup_cons]
    refine ⟨fun again => ?_, distinct⟩
    obtain ⟨next, inside, same⟩ := List.mem_map.mp again
    exact fresh next inside row (List.mem_append_right _ (List.mem_singleton_self row)) same.symm

namespace TagStore

section
variable {j : AnyJansson} {casts : CastOps} {checks : TagRow → Bool} {driver group : CStr}

theorem insert_some {table table' : TagTable} {row : TagRow} {ok : Bool} :
    table.insert checks row ok = some table' ↔
      ok = true ∧ insertRow checks table.rows row = some (table.rows ++ [row]) ∧
        table' = ⟨table.rows ++ [row], table.saved⟩ := by
  rw [TagTable.insert, Option.ite_none_right_eq_some, Option.map_eq_some_iff]
  refine and_congr_right fun _ => ?_
  constructor
  · rintro ⟨rows, inserted, rfl⟩
    obtain rfl := (insertRow_iff.mp inserted).2
    exact ⟨inserted, rfl⟩
  · rintro ⟨inserted, rfl⟩
    exact ⟨_, inserted, rfl⟩

theorem putTags_cons (calls : Nat → PutTagCalls) (i : Nat) (tag : NeuDatatag)
    (rest : List NeuDatatag) (table : TagTable) :
    ((calls i).bound = true ∧ (calls i).step = true ∧
        insertRow checks table.rows (rowOfTag j casts driver group tag) =
          some (table.rows ++ [rowOfTag j casts driver group tag]) ∧
        putTags j casts checks driver group calls i (tag :: rest) table =
          putTags j casts checks driver group calls (i + 1) rest
            ⟨table.rows ++ [rowOfTag j casts driver group tag], table.saved⟩) ∨
      ((calls i).bound = true → (calls i).step = true →
        insertRow checks table.rows (rowOfTag j casts driver group tag) ≠
          some (table.rows ++ [rowOfTag j casts driver group tag])) ∧
        putTags j casts checks driver group calls i (tag :: rest) table = (table, -1) := by
  rw [putTags]
  cases bound : (calls i).bound with
  | false => exact .inr ⟨fun other => absurd other Bool.false_ne_true, rfl⟩
  | true =>
    simp only [Bool.not_true, Bool.false_eq_true, if_false]
    cases inserted : table.insert checks (rowOfTag j casts driver group tag) (calls i).step with
    | none =>
      refine .inr ⟨fun _ step fits => ?_, rfl⟩
      rw [insert_some.mpr ⟨step, fits, rfl⟩] at inserted
      cases inserted
    | some table' =>
      obtain ⟨step, fits, rfl⟩ := insert_some.mp inserted
      exact .inl ⟨trivial, step, fits, rfl⟩

theorem putTags_saved (calls : Nat → PutTagCalls) (i : Nat) (tags : List NeuDatatag)
    (table : TagTable) :
    (putTags j casts checks driver group calls i tags table).1.saved = table.saved := by
  induction tags generalizing i table with
  | nil => rfl
  | cons tag rest ih =>
    rcases @putTags_cons j casts checks driver group calls i tag rest table with
      ⟨-, -, -, step⟩ | ⟨-, stop⟩
    · rw [step, ih]
    · rw [stop]

theorem putTags_through (calls : Nat → PutTagCalls) (i : Nat) (tags : List NeuDatatag)
    (table : TagTable) :
    ((putTags j casts checks driver group calls i tags table).2 = 0 ↔
      (∀ k < tags.length, (calls (i + k)).bound = true ∧ (calls (i + k)).step = true) ∧
        Insertable checks table.rows (tags.map (rowOfTag j casts driver group))) ∧
    ((putTags j casts checks driver group calls i tags table).2 = 0 →
      (putTags j casts checks driver group calls i tags table).1 =
        ⟨table.rows ++ tags.map (rowOfTag j casts driver group), table.saved⟩) := by
  induction tags generalizing i table with
  | nil =>
    refine ⟨iff_of_true rfl ⟨by simp, by simp, by simp, by simp⟩, fun _ => ?_⟩
    rw [List.map_nil, List.append_nil]
    rfl
  | cons tag rest ih =>
    rcases @putTags_cons j casts checks driver group calls i tag rest table with
      ⟨bound, ran, fits, step⟩ | ⟨refused, stop⟩
    · obtain ⟨through, rows⟩ := ih (i + 1) ⟨table.rows ++ [rowOfTag j casts driver group tag], table.saved⟩
      rw [step]
      constructor
      · rw [through, List.map_cons, insertable_cons, and_iff_right fits]
        refine and_congr_left fun _ => ?_
        rw [List.length_cons, Nat.forall_lt_succ_left]
        constructor
        · intro later
          exact ⟨⟨bound, ran⟩, fun k less => by rw [Nat.add_comm k, ← Nat.add_assoc]; exact later k less⟩
        · rintro ⟨-, later⟩ k less
          rw [Nat.add_assoc, Nat.add_comm 1]
          exact later k less
      · intro ok
        rw [rows ok, List.map_cons, List.append_assoc, List.singleton_append]
    · rw [stop]
      refine ⟨iff_of_false (by simp) ?_, fun ok => by simp at ok⟩
      rintro ⟨calls, rows⟩
      obtain ⟨bound, ran⟩ := calls 0 (Nat.succ_pos _)
      exact refused bound ran (insertable_cons.mp rows).1

theorem rolledBack_eq {store : TagStore} {table : TagTable} (outside : store.table.saved = none)
    (saved : table.saved = some store.table.rows) :
    store.rolledBack table = (store, NEU_ERR_EINTERNAL) := by
  obtain ⟨⟨rows, _⟩, count⟩ := store
  subst outside
  simp [rolledBack, TagTable.rollback, saved]

theorem begin_some {table table' : TagTable} {ok : Bool} :
    table.begin ok = some table' ↔
      table.saved = none ∧ ok = true ∧ table' = ⟨table.rows, some table.rows⟩ := by
  rw [TagTable.begin, Option.ite_none_left_eq_some, Option.some.injEq,
    eq_comm (a := TagTable.mk table.rows (some table.rows))]
  cases table.saved <;> cases ok <;> simp

/-- Either every call goes through and the rows are there, or nothing has changed. -/
theorem storeTags_cases (store : TagStore) (tags : List NeuDatatag) (calls : StoreTagsCalls) :
    (GoesThrough j casts checks driver group tags store calls ∧
        store.neuPersisterStoreTags j casts checks driver group tags calls =
          (tagCountAdd ⟨⟨store.table.rows ++ tags.map (rowOfTag j casts driver group), none⟩,
            store.tagCount⟩ tags.length, 0)) ∨
      (¬ GoesThrough j casts checks driver group tags store calls ∧
        store.neuPersisterStoreTags j casts checks driver group tags calls =
          (store, NEU_ERR_EINTERNAL)) := by
  rw [neuPersisterStoreTags]
  cases began : store.table.begin calls.begin with
  | none =>
    refine .inr ⟨fun through => ?_, rfl⟩
    rw [begin_some.mpr ⟨through.outside, through.begin, rfl⟩] at began
    cases began
  | some table =>
    obtain ⟨outside, begin, rfl⟩ := begin_some.mp began
    obtain ⟨through, rows⟩ := @putTags_through j casts checks driver group calls.tag 0 tags
      ⟨store.table.rows, some store.table.rows⟩
    have saved := @putTags_saved j casts checks driver group calls.tag 0 tags
      ⟨store.table.rows, some store.table.rows⟩
    simp only [Nat.zero_add] at through
    cases prepared : calls.prepare && calls.driverName && calls.groupName with
    | false =>
      refine .inr ⟨fun through => ?_, rolledBack_eq outside rfl⟩
      rw [through.prepare] at prepared
      cases prepared
    | true =>
      simp only [Bool.not_true, Bool.false_eq_true, if_false]
      by_cases put : (putTags j casts checks driver group calls.tag 0 tags
          ⟨store.table.rows, some store.table.rows⟩).2 = 0
      · rw [if_neg (by simpa using put)]
        obtain ⟨bound, fits⟩ := through.mp put
        cases commit : calls.commit with
        | false =>
          refine .inr ⟨fun through => ?_, rolledBack_eq outside saved⟩
          rw [through.commit] at commit
          cases commit
        | true =>
          refine .inl ⟨⟨outside, begin, prepared, bound, fits, commit⟩, ?_⟩
          rw [rows put]
          rfl
      · rw [if_pos put]
        refine .inr ⟨fun all => put (through.mpr ⟨all.bound, all.rows⟩), rolledBack_eq outside saved⟩

theorem int_exact (x : Int) : x.bmod (2 ^ 32) = x ↔ -2 ^ 31 ≤ x ∧ x < 2 ^ 31 := by
  constructor
  · intro same
    have below : x.bmod (2 ^ 32) < (((2 ^ 32 : Nat) : Int) + 1) / 2 :=
      Int.bmod_lt (Nat.two_pow_pos 32)
    have above : -(((2 ^ 32 : Nat) : Int) / 2) ≤ x.bmod (2 ^ 32) :=
      Int.le_bmod (Nat.two_pow_pos 32)
    omega
  · rintro ⟨above, below⟩
    apply Int.bmod_eq_of_le_mul_two
    · omega
    · omega

theorem tagCountAdd_count (store : TagStore) (n : Nat) :
    (tagCountAdd store n).tagCount = (store.tagCount + n).bmod (2 ^ 32) := by
  unfold tagCountAdd asInt
  exact Int.add_bmod_bmod

/-- The calls as the one outcome for each tag that `TagTable` knows; what is to be undone is. -/
def outcome (calls : StoreTagsCalls) : StoreTagsOutcome where
  begin := calls.begin
  prepare := calls.prepare && calls.driverName && calls.groupName
  runs i := (calls.tag i).bound && (calls.tag i).step
  commit := calls.commit
  rollback := true

theorem putTags_table (calls : StoreTagsCalls) (i : Nat) (tags : List NeuDatatag)
    (table : TagTable) :
    (putTags j casts checks driver group calls.tag i tags table).1.rows =
        (TagTable.putTags j casts checks driver group (outcome calls).runs i tags table.rows).1 ∧
      ((putTags j casts checks driver group calls.tag i tags table).2 = 0 ↔
        (TagTable.putTags j casts checks driver group (outcome calls).runs i tags table.rows).2 =
          true) := by
  induction tags generalizing i table with
  | nil => exact ⟨rfl, iff_of_true rfl rfl⟩
  | cons tag rest ih =>
    rw [TagTable.putTags]
    rcases @putTags_cons j casts checks driver group calls.tag i tag rest table with
      ⟨bound, ran, fits, step⟩ | ⟨refused, stop⟩
    · have both : (outcome calls).runs i = true := by simp [outcome, bound, ran]
      rw [step, if_pos both, fits]
      exact ih (i + 1) _
    · rw [stop]
      have none : (if (outcome calls).runs i = true then
          insertRow checks table.rows (rowOfTag j casts driver group tag) else none) = none := by
        rw [ite_eq_right_iff]
        intro both
        obtain ⟨bound, ran⟩ := Bool.and_eq_true_iff.mp both
        cases inserted : insertRow checks table.rows (rowOfTag j casts driver group tag) with
        | none => rfl
        | some rows =>
          obtain rfl := (insertRow_iff.mp inserted).2
          exact absurd inserted (refused bound ran)
      rw [none]
      exact ⟨rfl, by simp⟩

theorem storeTags_table (store : TagStore) (tags : List NeuDatatag) (calls : StoreTagsCalls) :
    (store.neuPersisterStoreTags j casts checks driver group tags calls).1.table =
        (store.table.neuPersisterStoreTags j casts checks driver group tags (outcome calls)).1 ∧
      (store.neuPersisterStoreTags j casts checks driver group tags calls).2 =
        (store.table.neuPersisterStoreTags j casts checks driver group tags (outcome calls)).2 := by
  rw [neuPersisterStoreTags, TagTable.neuPersisterStoreTags]
  cases began : store.table.begin calls.begin with
  | none =>
    have refused : (store.table.saved.isSome || !(outcome calls).begin) = true := by
      by_contra free
      rw [TagTable.begin, outcome.eq_def] at *
      rw [if_neg free] at began
      cases began
    rw [if_pos refused]
    exact ⟨rfl, rfl⟩
  | some table =>
    obtain ⟨outside, begin, rfl⟩ := begin_some.mp began
    have ready : ¬ (store.table.saved.isSome || !(outcome calls).begin) = true := by
      simp [outside, outcome, begin]
    have put := @putTags_table j casts checks driver group calls 0 tags
      ⟨store.table.rows, some store.table.rows⟩
    have saved := @putTags_saved j casts checks driver group calls.tag 0 tags
      ⟨store.table.rows, some store.table.rows⟩
    rw [if_neg ready]
    cases prepared : calls.prepare && calls.driverName && calls.groupName with
    | false =>
      have unprepared : (outcome calls).prepare = false := prepared
      rw [unprepared]
      simp only [Bool.not_false, if_true, rolledBack_eq outside]
      exact ⟨rfl, rfl⟩
    | true =>
      have prepared' : (outcome calls).prepare = true := prepared
      rw [prepared']
      simp only [Bool.not_true, Bool.false_eq_true, if_false, if_true]
      by_cases through : (putTags j casts checks driver group calls.tag 0 tags
          ⟨store.table.rows, some store.table.rows⟩).2 = 0
      · rw [if_neg (by simpa using through), put.2.mp through]
        cases commit : calls.commit with
        | false =>
          have uncommitted : (outcome calls).commit = false := commit
          rw [uncommitted]
          simp only [TagTable.commit, Bool.false_eq_true, if_false, rolledBack_eq outside saved]
          exact ⟨rfl, rfl⟩
        | true =>
          have committed : (outcome calls).commit = true := commit
          rw [committed]
          simp only [TagTable.commit, if_true, Bool.and_self, tagCountAdd, put.1, outside]
          exact ⟨trivial, trivial⟩
      · have stopped : (TagTable.putTags j casts checks driver group (outcome calls).runs 0 tags
            store.table.rows).2 = false := by simpa [through] using put.2
        rw [if_pos through, stopped, rolledBack_eq outside saved]
        exact ⟨rfl, rfl⟩

end

end TagStore

theorem store_tags_transactional (j : AnyJansson) (casts : CastOps) (checks : TagRow → Bool)
    (driver group : CStr) (tags : List NeuDatatag) (store : TagStore) (calls : StoreTagsCalls) :
    Transactional j casts driver group tags store
        (store.neuPersisterStoreTags j casts checks driver group tags calls) ↔
      (GoesThrough j casts checks driver group tags store calls →
        -2 ^ 31 ≤ store.tagCount + tags.length ∧ store.tagCount + tags.length < 2 ^ 31) := by
  rcases @TagStore.storeTags_cases j casts checks driver group store tags calls with
    ⟨through, result⟩ | ⟨fails, result⟩
  · rw [result, ← TagStore.int_exact, ← TagStore.tagCountAdd_count]
    constructor
    · intro transactional _
      exact transactional.count rfl
    · intro fits
      exact ⟨fun other => absurd rfl other, fun _ => rfl, fun _ => fits through⟩
  · rw [result]
    have error : NEU_ERR_EINTERNAL ≠ 0 := by decide
    refine iff_of_true ⟨fun _ => rfl, fun ok => absurd ok error,
      fun ok => absurd ok error⟩ fun through => ?_
    exact absurd through fails

def plainTag : NeuDatatag :=
  ⟨.lit "level", .lit "1!400001", NEU_ATTRIBUTE_READ, .int16, 0, 0, .empty, Block.zero, none⟩

def allThrough : StoreTagsCalls :=
  ⟨true, true, true, true, fun _ => ⟨true, true, true, true, true, true, true, true, true⟩, true⟩

/-- A counter that is at the end of its range. -/
theorem store_tags_transactional_full :
    ¬ Transactional numberJansson ieeeCasts (.lit "modbus") (.lit "a") [plainTag]
      ⟨⟨[], none⟩, 2 ^ 31 - 1⟩
      (TagStore.neuPersisterStoreTags numberJansson ieeeCasts (fun _ => true) (.lit "modbus")
        (.lit "a") ⟨⟨[], none⟩, 2 ^ 31 - 1⟩ [plainTag] allThrough) ∧
    (TagStore.neuPersisterStoreTags numberJansson ieeeCasts (fun _ => true) (.lit "modbus")
        (.lit "a") ⟨⟨[], none⟩, 2 ^ 31 - 1⟩ [plainTag] allThrough).1.tagCount = -2 ^ 31 := by
  have wrapped : (TagStore.neuPersisterStoreTags numberJansson ieeeCasts (fun _ => true)
      (.lit "modbus") (.lit "a") ⟨⟨[], none⟩, 2 ^ 31 - 1⟩ [plainTag] allThrough).1.tagCount =
        -2 ^ 31 := by decide +kernel
  refine ⟨fun transactional => ?_, wrapped⟩
  have counted := transactional.count rfl
  rw [wrapped] at counted
  exact absurd counted (by decide)

end Cpm
