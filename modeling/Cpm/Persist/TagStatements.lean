import Cpm.Lib.SqlStatement
import Cpm.Persist.StoreTags

/-! The row of a tag as it is written by a formatted INSERT, with bound values, and by a formatted
UPDATE, from `persist.c`, and exactly when it is the same. -/
namespace Cpm

open Lib Lib.Sql

structure SqlTags where
  rows : List Row
  tagCount : Int

/-- `UNIQUE (driver_name, group_name, name)`; `check` are the other constraints. -/
def tagsSchema (check : Row → Bool) : Schema :=
  ⟨"tags", ["driver_name", "group_name", "name"], check⟩

/-- `ok` says that there is memory for the query and that SQLite can run it. -/
def executeSql (reals : Reals) (schema : Schema) (rows : List Row) (sql : List Char) (args : List Arg)
    (ok : Bool) : List Row × Int :=
  if !ok then (rows, NEU_ERR_EINTERNAL)
  else match (tokens (vmprintf reals sql args)).bind (statement reals) with
  | none => (rows, NEU_ERR_EINTERNAL)
  | some query =>
    match execute reals schema rows query with
    | none => (rows, NEU_ERR_EINTERNAL)
    | some rows => (rows, 0)

def quotedText (text : CStr) : Arg := .quoted (some text.chars)

def storeTagSql : List Char :=
  "INSERT INTO tags (".toList ++
  " driver_name, group_name, name, address, attribute,".toList ++
  " precision, type, decimal, description, value".toList ++
  ") VALUES (%Q, %Q, %Q, %Q, %i, %i, %i, %lf, %Q, %Q)".toList

def updateTagSql : List Char :=
  "UPDATE tags SET".toList ++
  " address=%Q, attribute=%i, precision=%i, type=%i,".toList ++
  " decimal=%lf, description=%Q, value=%Q ".toList ++
  "WHERE driver_name=%Q AND group_name=%Q AND name=%Q".toList

section
variable (j : AnyJansson) (casts : CastOps) (driver group : CStr) (tag : NeuDatatag)

def storeTagArgs : List Arg :=
  [quotedText driver, quotedText group, quotedText tag.name, quotedText tag.address,
    .int (asInt tag.attributes), .int tag.precision.toNat, .int (asInt tag.type.code),
      .float tag.decimal,
    quotedText tag.description, .quoted ((neuTagDumpStaticValue j casts tag).map CStr.chars)]

def updateTagArgs : List Arg :=
  [quotedText tag.address, .int (asInt tag.attributes), .int tag.precision.toNat,
    .int (asInt tag.type.code), .float tag.decimal, quotedText tag.description,
    .quoted ((neuTagDumpStaticValue j casts tag).map CStr.chars), quotedText driver,
    quotedText group, quotedText tag.name]

namespace SqlTags

variable (reals : Reals) (check : Row → Bool) (store : SqlTags) (ok : Bool)

def neuPersisterStoreTag : SqlTags × Int :=
  let result := executeSql reals (tagsSchema check) store.rows storeTagSql
    (storeTagArgs j casts driver group tag) ok
  if result.2 = 0 then (⟨result.1, (store.tagCount + 1).bmod (2 ^ 32)⟩, result.2)
  else ({ store with rows := result.1 }, result.2)

def neuPersisterUpdateTag : SqlTags × Int :=
  let result := executeSql reals (tagsSchema check) store.rows updateTagSql
    (updateTagArgs j casts driver group tag) ok
  ({ store with rows := result.1 }, result.2)

end SqlTags

end

/- The statements. -/

def tagColumns : List String :=
  ["driver_name", "group_name", "name", "address", "attribute", "precision", "type", "decimal",
    "description", "value"]

def tagSet (j : AnyJansson) (casts : CastOps) (tag : NeuDatatag) : List (String × Arg) :=
  [("address", quotedText tag.address), ("attribute", .int (asInt tag.attributes)),
    ("precision", .int tag.precision.toNat), ("type", .int (asInt tag.type.code)),
    ("decimal", .float tag.decimal), ("description", quotedText tag.description),
    ("value", .quoted ((neuTagDumpStaticValue j casts tag).map CStr.chars))]

def tagKey (driver group : CStr) (tag : NeuDatatag) : List (String × Arg) :=
  [("driver_name", quotedText driver), ("group_name", quotedText group),
    ("name", quotedText tag.name)]

def storeTagPieces : List Piece :=
  ⟨"INSERT INTO tags ( driver_name, group_name, name, address, attribute,".toList ++
      " precision, type, decimal, description, value) VALUES (".toList,
    .word "INSERT" :: .word "INTO" :: .word "tags" :: .mark '(' ::
      (namesTokens tagColumns ++ [.word "VALUES", .mark '(']), .quoted⟩ ::
    [.quoted, .quoted, .quoted, .int, .int, .int, .float, .quoted, .quoted].map
      (⟨", ".toList, [.mark ','], ·⟩)

def assigned (name : String) (conversion : Conversion) : Piece :=
  ⟨", ".toList ++ name.toList ++ "=".toList, [.mark ',', .word name, .mark '='], conversion⟩

def updateTagPieces : List Piece :=
  [⟨"UPDATE tags SET address=".toList,
      [.word "UPDATE", .word "tags", .word "SET", .word "address", .mark '='], .quoted⟩,
    assigned "attribute" .int, assigned "precision" .int, assigned "type" .int,
    assigned "decimal" .float, assigned "description" .quoted, assigned "value" .quoted,
    ⟨" WHERE driver_name=".toList, [.word "WHERE", .word "driver_name", .mark '='], .quoted⟩,
    ⟨" AND group_name=".toList, [.word "AND", .word "group_name", .mark '='], .quoted⟩,
    ⟨" AND name=".toList, [.word "AND", .word "name", .mark '='], .quoted⟩]

-- The literals are replaced by their characters, which need not be evaluated then.
theorem storeTagSql_pieces : storeTagSql = formatText storeTagPieces [')'] := by
  unfold storeTagSql storeTagPieces
  repeat rewrite [String.toList_ofList]
  decide +kernel

theorem updateTagSql_pieces : updateTagSql = formatText updateTagPieces [] := by
  unfold updateTagSql updateTagPieces assigned
  repeat rewrite [String.toList_ofList]
  decide +kernel

theorem storeTagPieces_closed : ∀ piece ∈ storeTagPieces, piece.Closed := by
  unfold storeTagPieces
  repeat rewrite [String.toList_ofList]
  decide +kernel

theorem updateTagPieces_closed : ∀ piece ∈ updateTagPieces, piece.Closed := by
  unfold updateTagPieces assigned
  repeat rewrite [String.toList_ofList]
  decide +kernel

section
variable {reals : Reals} {j : AnyJansson} {casts : CastOps} {driver group : CStr} {tag : NeuDatatag}

theorem storeTag_statement (prints : RealText (reals.print tag.decimal)) :
    (tokens (vmprintf reals storeTagSql (storeTagArgs j casts driver group tag))).bind
        (statement reals) =
      some (.insert "tags"
        (valued reals (tagColumns.zip (storeTagArgs j casts driver group tag)))) := by
  have each : ∀ arg ∈ storeTagArgs j casts driver group tag, arg.Prints reals := by
    simp [storeTagArgs, quotedText, Arg.Prints, prints]
  have whole :
      formatTokens reals storeTagPieces [.mark ')'] (storeTagArgs j casts driver group tag) =
        insertTokens reals "tags" (tagColumns.zip (storeTagArgs j casts driver group tag)) := rfl
  have ended : tokens [')'] = some [.mark ')'] := by decide
  rw [storeTagSql_pieces, tokens_vmprintf rfl storeTagPieces_closed ended (by decide)
    (by decide +kernel) each, Option.bind_some, whole]
  refine statement_insert "tags" (List.cons_ne_nil _ _) fun column inside => ?_
  exact each _ (List.of_mem_zip inside).2

theorem updateTag_statement (prints : RealText (reals.print tag.decimal)) :
    (tokens (vmprintf reals updateTagSql (updateTagArgs j casts driver group tag))).bind
        (statement reals) =
      some (.update "tags" (valued reals (tagSet j casts tag))
        (valued reals (tagKey driver group tag))) := by
  have each : ∀ arg ∈ updateTagArgs j casts driver group tag, arg.Prints reals := by
    simp [updateTagArgs, quotedText, Arg.Prints, prints]
  have whole : formatTokens reals updateTagPieces [] (updateTagArgs j casts driver group tag) =
      updateTokens reals "tags" (tagSet j casts tag) (tagKey driver group tag) := rfl
  have args : (tagSet j casts tag ++ tagKey driver group tag).map Prod.snd =
      updateTagArgs j casts driver group tag := rfl
  have ended : tokens [] = some [] := rfl
  rw [updateTagSql_pieces, tokens_vmprintf rfl updateTagPieces_closed ended (by decide)
    (by decide +kernel) each, Option.bind_some, whole]
  refine statement_update "tags" (List.cons_ne_nil _ _) (List.cons_ne_nil _ _) fun column inside => ?_
  exact each _ (args ▸ List.mem_map_of_mem inside)

end

/- The rows that are left. -/

/-- The columns of a row that is bound; NaN was bound as NULL. -/
def TagRow.values (row : TagRow) : List Value :=
  [.text row.driverName.chars, .text row.groupName.chars, .text row.name.chars,
    .text row.address.chars, .integer (asInt row.attributes), .integer row.precision.toNat,
    .integer (asInt row.type.code), row.decimal.elim .null .real, .text row.description.chars,
    row.value.elim .null fun text => .text text.chars]

def TagRow.bound (reals : Reals) (row : TagRow) : Row := Row.new reals (tagColumns.zip row.values)

def NamedRow (driver group name : CStr) (row : Row) : Prop :=
  row "driver_name" = .text driver.chars ∧ row "group_name" = .text group.chars ∧
    row "name" = .text name.chars

def SameRow (a b : Row) : Prop := ∀ name ∈ tagColumns, a name = b name

structure RowLeft (driver group name : CStr) (rows : List Row) (row : Row) : Prop where
  there : ∃ left ∈ rows, NamedRow driver group name left
  same : ∀ left ∈ rows, NamedRow driver group name left → SameRow left row

def formattedRow (reals : Reals) (j : AnyJansson) (casts : CastOps) (driver group : CStr)
    (tag : NeuDatatag) : Row :=
  Row.new reals (tagColumns.zip ((storeTagArgs j casts driver group tag).map (Arg.value reals)))

section
variable {reals : Reals} {j : AnyJansson} {casts : CastOps} {driver group : CStr} {tag : NeuDatatag}

theorem storeTag_columns :
    valued reals (tagColumns.zip (storeTagArgs j casts driver group tag)) =
      tagColumns.zip ((storeTagArgs j casts driver group tag).map (Arg.value reals)) := rfl

theorem formattedRow_named :
    NamedRow driver group tag.name (formattedRow reals j casts driver group tag) :=
  ⟨rfl, rfl, rfl⟩

theorem bound_named (row : TagRow) :
    NamedRow driver group tag.name (row.bound reals) ↔ row.key = (driver, group, tag.name) := by
  have text (a b : CStr) : Value.text a.chars = .text b.chars ↔ a = b :=
    ⟨fun same => CStr.ext (Value.text.inj same), congrArg fun s : CStr => Value.text s.chars⟩
  have columns : NamedRow driver group tag.name (row.bound reals) ↔
      Value.text row.driverName.chars = .text driver.chars ∧
        Value.text row.groupName.chars = .text group.chars ∧
        Value.text row.name.chars = .text tag.name.chars := Iff.rfl
  rw [columns, text, text, text, TagRow.key, Prod.mk.injEq, Prod.mk.injEq]

theorem rowLeft_append {rows : List Row} {new row : Row} {name : CStr}
    (fresh : ∀ old ∈ rows, ¬ NamedRow driver group name old) (named : NamedRow driver group name new) :
    RowLeft driver group name (rows ++ [new]) row ↔ SameRow new row := by
  constructor
  · exact fun left => left.same new (List.mem_append_right _ (List.mem_singleton_self new)) named
  · refine fun same => ⟨⟨new, List.mem_append_right _ (List.mem_singleton_self new), named⟩, ?_⟩
    intro left inside named'
    rcases List.mem_append.mp inside with old | last
    · exact absurd named' (fresh left old)
    · exact List.mem_singleton.mp last ▸ same

theorem clash_named {check : Row → Bool} {name : CStr} {a b : Row}
    (first : NamedRow driver group name a) (second : NamedRow driver group name b) :
    clash (tagsSchema check).key a b = true := by
  simp [clash, tagsSchema, first.1, first.2.1, first.2.2, second.1, second.2.1, second.2.2]

theorem executeSql_done {schema : Schema} {rows after : List Row} {sql : List Char} {args : List Arg}
    {ok : Bool} {query : Statement}
    (parsed : (tokens (vmprintf reals sql args)).bind (statement reals) = some query)
    (done : executeSql reals schema rows sql args ok = (after, 0)) :
    execute reals schema rows query = some after := by
  have failed {rows : List Row} : (rows, NEU_ERR_EINTERNAL) ≠ (after, 0) := fun same =>
    absurd (Prod.mk.inj same).2 (by decide)
  rw [executeSql, parsed] at done
  split at done
  · exact absurd done failed
  · simp only at done
    split at done
    · exact absurd done failed
    · rename_i rows' executed
      rw [executed, (Prod.mk.inj done).1]

theorem executeSql_runs {schema : Schema} {rows after : List Row} {sql : List Char} {args : List Arg}
    {query : Statement}
    (parsed : (tokens (vmprintf reals sql args)).bind (statement reals) = some query)
    (executed : execute reals schema rows query = some after) :
    executeSql reals schema rows sql args true = (after, 0) := by
  rw [executeSql, parsed]
  simp [executed]

theorem storeTag_left {check : Row → Bool} {store after : SqlTags} {ok : Bool}
    (prints : RealText (reals.print tag.decimal))
    (stored : store.neuPersisterStoreTag j casts driver group tag reals check ok = (after, 0))
    (row : Row) :
    RowLeft driver group tag.name after.rows row ↔
      SameRow (formattedRow reals j casts driver group tag) row := by
  have done : executeSql reals (tagsSchema check) store.rows storeTagSql
      (storeTagArgs j casts driver group tag) ok = (after.rows, 0) := by
    rw [SqlTags.neuPersisterStoreTag] at stored
    split at stored
    all_goals
      obtain ⟨rfl, success⟩ := Prod.mk.inj stored
      exact Prod.ext rfl success
  have executed := executeSql_done (storeTag_statement prints) done
  rw [storeTag_columns, execute] at executed
  simp only [Option.ite_none_left_eq_some, Option.some.injEq] at executed
  obtain ⟨allowed, rows⟩ := executed
  have fresh : ∀ old ∈ store.rows, ¬ NamedRow driver group tag.name old := by
    intro old inside named
    apply allowed
    have clashes : store.rows.any (fun row => clash (tagsSchema check).key row
        (formattedRow reals j casts driver group tag)) = true :=
      List.any_eq_true.mpr ⟨old, inside, clash_named named formattedRow_named⟩
    rw [formattedRow] at clashes
    rw [clashes, Bool.or_true, Bool.true_or]
  rw [← rows]
  exact rowLeft_append fresh formattedRow_named

theorem storeTag_succeeds {check : Row → Bool} {store : SqlTags}
    (prints : RealText (reals.print tag.decimal))
    (fresh : store.rows.any (fun old => clash (tagsSchema check).key old
      (formattedRow reals j casts driver group tag)) = false)
    (valid : check (formattedRow reals j casts driver group tag) = true) :
    store.neuPersisterStoreTag j casts driver group tag reals check true =
      (⟨store.rows ++ [formattedRow reals j casts driver group tag],
        (store.tagCount + 1).bmod (2 ^ 32)⟩, 0) := by
  have executed : execute reals (tagsSchema check) store.rows (.insert "tags" (valued reals
      (tagColumns.zip (storeTagArgs j casts driver group tag)))) =
        some (store.rows ++ [formattedRow reals j casts driver group tag]) := by
    rw [execute, storeTag_columns, ← formattedRow, fresh]
    simp [tagsSchema, valid]
  rw [SqlTags.neuPersisterStoreTag, executeSql_runs (storeTag_statement prints) executed]
  rfl

theorem meets_named (row : Row) :
    row.meets (valued reals (tagKey driver group tag)) = true ↔
      NamedRow driver group tag.name row := by
  simp [Row.meets, valued, tagKey, quotedText, Arg.value, NamedRow]

theorem set_same {row : Row} (named : NamedRow driver group tag.name row) :
    SameRow (row.set reals (valued reals (tagSet j casts tag)))
      (formattedRow reals j casts driver group tag) := by
  simp only [SameRow, tagColumns, List.forall_mem_cons]
  exact ⟨named.1, named.2.1, named.2.2, rfl, rfl, rfl, rfl, rfl, rfl, rfl, List.forall_mem_nil _⟩

theorem updateTag_succeeds {check : Row → Bool} {row : Row} {count : Int}
    (prints : RealText (reals.print tag.decimal)) (named : NamedRow driver group tag.name row)
    (valid : check (row.set reals (valued reals (tagSet j casts tag))) = true) :
    SqlTags.neuPersisterUpdateTag j casts driver group tag reals check ⟨[row], count⟩ true =
      (⟨[row.set reals (valued reals (tagSet j casts tag))], count⟩, 0) := by
  have executed : execute reals (tagsSchema check) [row] (.update "tags"
      (valued reals (tagSet j casts tag)) (valued reals (tagKey driver group tag))) =
        some [row.set reals (valued reals (tagSet j casts tag))] := by
    have meets := (@meets_named reals driver group tag row).mpr named
    simp [execute, tagsSchema, meets, valid]
  rw [SqlTags.neuPersisterUpdateTag, executeSql_runs (updateTag_statement prints) executed]

theorem updateTag_left {check : Row → Bool} {store after : SqlTags} {ok : Bool}
    (prints : RealText (reals.print tag.decimal))
    (updated : store.neuPersisterUpdateTag j casts driver group tag reals check ok = (after, 0))
    (present : ∃ old ∈ store.rows, NamedRow driver group tag.name old) (row : Row) :
    RowLeft driver group tag.name after.rows row ↔
      SameRow (formattedRow reals j casts driver group tag) row := by
  have done : executeSql reals (tagsSchema check) store.rows updateTagSql
      (updateTagArgs j casts driver group tag) ok = (after.rows, 0) := by
    rw [SqlTags.neuPersisterUpdateTag] at updated
    obtain ⟨rfl, success⟩ := Prod.mk.inj updated
    exact Prod.ext rfl success
  have executed := executeSql_done (updateTag_statement prints) done
  rw [execute] at executed
  simp only [Option.ite_none_left_eq_some, Option.ite_none_right_eq_some, Option.some.injEq] at executed
  obtain ⟨-, -, rows⟩ := executed
  have each (left : Row) : left ∈ after.rows ∧ NamedRow driver group tag.name left ↔
      ∃ old ∈ store.rows, NamedRow driver group tag.name old ∧
        left = old.set reals (valued reals (tagSet j casts tag)) := by
    rw [← rows, List.mem_map]
    constructor
    · rintro ⟨⟨old, inside, rfl⟩, named⟩
      split at named
      · rename_i meets
        rw [if_pos meets]
        exact ⟨old, inside, (meets_named old).mp meets, rfl⟩
      · rename_i other
        exact absurd ((meets_named old).mpr named) other
    · rintro ⟨old, inside, named, rfl⟩
      exact ⟨⟨old, inside, if_pos ((meets_named old).mpr named)⟩, named⟩
  constructor
  · intro left
    obtain ⟨old, inside, named⟩ := present
    obtain ⟨there, named'⟩ := (each _).mpr ⟨old, inside, named, rfl⟩
    have same := left.same _ there named'
    exact fun name column => (@set_same reals j casts driver group tag _ named name column).symm.trans
      (same name column)
  · intro same
    obtain ⟨old, inside, named⟩ := present
    obtain ⟨there, named'⟩ := (each _).mpr ⟨old, inside, named, rfl⟩
    refine ⟨⟨_, there, named'⟩, fun left inside' named'' => ?_⟩
    obtain ⟨before, -, known, rfl⟩ := (each left).mp ⟨inside', named''⟩
    exact fun name column => (set_same known name column).trans (same name column)

theorem storeTags_left {checks : TagRow → Bool} {store after : TagStore} {calls : StoreTagsCalls}
    (stored : store.neuPersisterStoreTags j casts checks driver group [tag] calls = (after, 0))
    (row : Row) :
    RowLeft driver group tag.name (after.table.rows.map (TagRow.bound reals)) row ↔
      SameRow ((rowOfTag j casts driver group tag).bound reals) row := by
  rcases @TagStore.storeTags_cases j casts checks driver group store [tag] calls with
    ⟨through, result⟩ | ⟨-, result⟩
  · obtain ⟨rfl, -⟩ := Prod.mk.inj (result.symm.trans stored)
    have fresh : ∀ old ∈ store.table.rows.map (TagRow.bound reals),
        ¬ NamedRow driver group tag.name old := by
      intro old inside named
      obtain ⟨row, there, rfl⟩ := List.mem_map.mp inside
      exact through.rows.fresh _ (List.mem_singleton_self _) row there ((bound_named row).mp named)
    have rows : (store.table.rows ++ [tag].map (rowOfTag j casts driver group)).map
        (TagRow.bound reals) = store.table.rows.map (TagRow.bound reals) ++
          [(rowOfTag j casts driver group tag).bound reals] := List.map_append
    exact (iff_of_eq (congrArg (RowLeft driver group tag.name · row) rows)).trans
      (rowLeft_append fresh ((bound_named _).mpr rfl))
  · exact absurd (Prod.mk.inj (result.symm.trans stored)).2 (by decide)

/-- The one column that may differ. -/
theorem formatted_bound (finite : Ieee.binary64.special tag.decimal = false) :
    SameRow (formattedRow reals j casts driver group tag)
        ((rowOfTag j casts driver group tag).bound reals) ↔
      reals.kept (reals.read (reals.print tag.decimal)) = reals.kept tag.decimal := by
  have number : Ieee.binary64.isNan tag.decimal = false := by
    rw [Ieee.isNan, finite, Bool.false_and]
  rw [SameRow, formattedRow, TagRow.bound, Row.new_zip_iff (by decide) rfl rfl]
  cases dumped : neuTagDumpStaticValue j casts tag with
  | none =>
    simp [storeTagArgs, quotedText, Arg.value, TagRow.values, rowOfTag, number, dumped, Value.stored]
  | some text =>
    simp [storeTagArgs, quotedText, Arg.value, TagRow.values, rowOfTag, number, dumped, Value.stored]

end

theorem tag_rows_agree (reals : Reals)
    (prints : ∀ bits, Ieee.binary64.special bits = false → RealText (reals.print bits))
    (j : AnyJansson) (casts : CastOps) {driver group : CStr} {tag : NeuDatatag}
    (finite : Ieee.binary64.special tag.decimal = false) {check : Row → Bool}
    {checks : TagRow → Bool} {single single' existing existing' : SqlTags}
    {multiple multiple' : TagStore} {calls : StoreTagsCalls} {ok ok' : Bool}
    (stored : single.neuPersisterStoreTag j casts driver group tag reals check ok = (single', 0))
    (batch : multiple.neuPersisterStoreTags j casts checks driver group [tag] calls = (multiple', 0))
    (present : ∃ old ∈ existing.rows, NamedRow driver group tag.name old)
    (updated : existing.neuPersisterUpdateTag j casts driver group tag reals check ok' =
      (existing', 0)) :
    (∃ row, RowLeft driver group tag.name single'.rows row ∧
        RowLeft driver group tag.name (multiple'.table.rows.map (TagRow.bound reals)) row ∧
        RowLeft driver group tag.name existing'.rows row) ↔
      reals.kept (reals.read (reals.print tag.decimal)) = reals.kept tag.decimal := by
  have text := prints tag.decimal finite
  rw [← @formatted_bound reals j casts driver group tag finite]
  simp only [storeTag_left text stored, storeTags_left batch, updateTag_left text updated present]
  constructor
  · rintro ⟨row, formatted, bound, -⟩
    exact fun name inside => (formatted name inside).trans (bound name inside).symm
  · exact fun same => ⟨_, same, fun _ _ => rfl, same⟩

def halfReals : Reals where
  print bits := if bits = 0x3fe0000000000000 then "0.500000".toList else "0.000000".toList
  read text := if text = "0.500000".toList then 0x3fe0000000000000 else 0
  kept := id

theorem halfReals_prints (bits : Nat) : RealText (halfReals.print bits) := by
  have zero : ∀ c ∈ ['0'], c.isDigit = true := List.all_eq_true.mp (by decide)
  by_cases half : bits = 0x3fe0000000000000
  · exact ⟨[], ['0'], "500000".toList, (if_pos half).trans (by decide), .inl rfl, by decide, zero,
      List.all_eq_true.mp (by decide)⟩
  · exact ⟨[], ['0'], "000000".toList, (if_neg half).trans (by decide), .inl rfl, by decide, zero,
      List.all_eq_true.mp (by decide)⟩

def scaledTag (decimal : Nat) : NeuDatatag := { plainTag with decimal }

def storedSingle (tag : NeuDatatag) : SqlTags × Int :=
  SqlTags.neuPersisterStoreTag numberJansson ieeeCasts (.lit "modbus") (.lit "a") tag halfReals
    (fun _ => true) ⟨[], 0⟩ true

def storedBatch (tag : NeuDatatag) : TagStore × Int :=
  TagStore.neuPersisterStoreTags numberJansson ieeeCasts (fun _ => true) (.lit "modbus") (.lit "a")
    ⟨⟨[], none⟩, 0⟩ [tag] allThrough

def updatedRow (tag : NeuDatatag) : SqlTags × Int :=
  SqlTags.neuPersisterUpdateTag numberJansson ieeeCasts (.lit "modbus") (.lit "a") tag halfReals
    (fun _ => true)
    ⟨[(rowOfTag numberJansson ieeeCasts (.lit "modbus") (.lit "a") plainTag).bound halfReals], 1⟩ true

theorem storedSingle_eq (decimal : Nat) :
    storedSingle (scaledTag decimal) =
      (⟨[formattedRow halfReals numberJansson ieeeCasts (.lit "modbus") (.lit "a") (scaledTag decimal)],
        1⟩, 0) :=
  storeTag_succeeds (halfReals_prints _) rfl rfl

theorem updatedRow_eq (decimal : Nat) :
    updatedRow (scaledTag decimal) =
      (⟨[((rowOfTag numberJansson ieeeCasts (.lit "modbus") (.lit "a") plainTag).bound halfReals).set
        halfReals (valued halfReals (tagSet numberJansson ieeeCasts (scaledTag decimal)))], 1⟩, 0) :=
  updateTag_succeeds (halfReals_prints _) ((bound_named _).mpr rfl) rfl

theorem tag_rows_agree_half :
    ∃ row, RowLeft (.lit "modbus") (.lit "a") (.lit "level")
        (storedSingle (scaledTag 0x3fe0000000000000)).1.rows row ∧
      RowLeft (.lit "modbus") (.lit "a") (.lit "level")
        ((storedBatch (scaledTag 0x3fe0000000000000)).1.table.rows.map (TagRow.bound halfReals)) row ∧
      RowLeft (.lit "modbus") (.lit "a") (.lit "level")
        (updatedRow (scaledTag 0x3fe0000000000000)).1.rows row := by
  have stored : storedSingle (scaledTag 0x3fe0000000000000) =
      ((storedSingle (scaledTag 0x3fe0000000000000)).1, 0) := by rw [storedSingle_eq]
  have batch : storedBatch (scaledTag 0x3fe0000000000000) =
      ((storedBatch (scaledTag 0x3fe0000000000000)).1, 0) := Prod.ext rfl (by decide +kernel)
  have updated : updatedRow (scaledTag 0x3fe0000000000000) =
      ((updatedRow (scaledTag 0x3fe0000000000000)).1, 0) := by rw [updatedRow_eq]
  exact (tag_rows_agree halfReals (fun bits _ => halfReals_prints bits) numberJansson ieeeCasts
    (by decide) stored batch ⟨_, List.mem_singleton_self _, (bound_named _).mpr rfl⟩ updated).mpr
      (by decide)

/-- One ten-millionth is kept by one of the three ways only. -/
theorem tag_rows_agree_tiny :
    Ieee.binary64.special (scaledTag 0x3e7ad7f29abcaf48).decimal = false ∧
    ((storedSingle (scaledTag 0x3e7ad7f29abcaf48)).2 = 0 ∧
      (storedSingle (scaledTag 0x3e7ad7f29abcaf48)).1.rows.map (· "decimal") = [.real 0]) ∧
    ((storedBatch (scaledTag 0x3e7ad7f29abcaf48)).2 = 0 ∧
      (storedBatch (scaledTag 0x3e7ad7f29abcaf48)).1.table.rows.map
        (TagRow.bound halfReals · "decimal") = [.real 0x3e7ad7f29abcaf48]) ∧
    ((updatedRow (scaledTag 0x3e7ad7f29abcaf48)).2 = 0 ∧
      (updatedRow (scaledTag 0x3e7ad7f29abcaf48)).1.rows.map (· "decimal") = [.real 0]) ∧
    ¬ ∃ row, RowLeft (.lit "modbus") (.lit "a") (.lit "level")
        (storedSingle (scaledTag 0x3e7ad7f29abcaf48)).1.rows row ∧
      RowLeft (.lit "modbus") (.lit "a") (.lit "level")
        ((storedBatch (scaledTag 0x3e7ad7f29abcaf48)).1.table.rows.map (TagRow.bound halfReals)) row := by
  have success : (storedBatch (scaledTag 0x3e7ad7f29abcaf48)).2 = 0 := by decide +kernel
  have batch : storedBatch (scaledTag 0x3e7ad7f29abcaf48) =
      ((storedBatch (scaledTag 0x3e7ad7f29abcaf48)).1, 0) := Prod.ext rfl success
  rw [storedSingle_eq, updatedRow_eq]
  refine ⟨by decide, ⟨rfl, rfl⟩, ⟨success, by decide +kernel⟩, ⟨rfl, rfl⟩, ?_⟩
  rintro ⟨row, formatted, bound⟩
  have zero : Value.real 0 = row "decimal" :=
    formatted.same _ (List.mem_singleton_self _) formattedRow_named "decimal" (by decide)
  have tiny : Value.real 0x3e7ad7f29abcaf48 = row "decimal" :=
    (@storeTags_left halfReals _ _ _ _ (scaledTag 0x3e7ad7f29abcaf48) _ _ _ _ batch row).mp bound
      "decimal" (by decide)
  exact absurd (zero.trans tiny.symm) (by decide)

end Cpm
