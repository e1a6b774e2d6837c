import Mathlib.Data.Char
import Mathlib.Data.List.Lex
import Mathlib.Data.List.Sort
import Cpm.Base.Group
import Cpm.Lib.Run

/-! The schema migrations of `persist.c`. A version gets its row before its script is executed, and
the row is dirty until the script is through. -/
namespace Cpm

open Lib Lib.Run

def PATH_MAX_SIZE : Nat := 128

structure Migration where
  description : CStr
  dirty : Bool
  deriving DecidableEq

/-- The table `migrations` by its unique column, and the versions whose scripts were executed. -/
structure SchemaDb where
  migrations : Table CStr Migration
  executed : List CStr

/-- The part of `path_cat` that counts: the text that would come out if it fitted. -/
def pathCat (dst src : List Char) : List Char :=
  (if dst ≠ [] ∧ dst.getLast? ≠ some '/' then dst ++ ['/'] else dst) ++
    (if src.head? = some '/' then src.tail else src)

def endsWith (str suffix : List Char) : Bool := suffix.isSuffixOf str

/-- The file name is a version of four characters, `_`, a description and `.sql`. -/
def extractSchemaInfo (file : CStr) : Option (CStr × CStr) :=
  if !endsWith file.chars ".sql".toList then none
  else if !file.chars.contains '_' || file.chars.idxOf '_' ≠ 4 then none
  else if file.chars.drop 5 = ".sql".toList then none
  else some
    (⟨file.chars.take 4, fun inside => file.noNul (List.mem_of_mem_take inside)⟩,
      ⟨(file.chars.drop 5).take (file.strlen - 9), fun inside =>
        file.noNul (List.mem_of_mem_drop (List.mem_of_mem_take inside))⟩)

/-- What comes of reading a file. Without its size the text is not set, and no error is seen. -/
inductive FileRead where
  | failed
  | unset
  | script
  deriving DecidableEq

structure FileOutcome where
  count : Bool
  read : FileRead
  insert : Bool
  script : Bool
  update : Bool
  deriving DecidableEq

def shouldApply (db : SchemaDb) (version : CStr) (ok : Bool) : Int :=
  if !ok then -1 else if (db.migrations.find version).isSome then 0 else 1

def applySchemaFile (db : SchemaDb) (dir file : CStr) (out : FileOutcome) : SchemaDb × Int :=
  let path := pathCat [] dir.chars
  if PATH_MAX_SIZE ≤ path.length || PATH_MAX_SIZE ≤ (pathCat path file.chars).length then (db, -1)
  else match extractSchemaInfo file with
  | none => (db, 0)
  | some (version, description) =>
    let rv := shouldApply db version out.count
    if rv ≤ 0 then (db, rv)
    else if out.read = .failed then (db, -1)
    else if !out.insert then (db, NEU_ERR_EINTERNAL)
    else
      let db := { db with migrations := db.migrations.insert version ⟨description, true⟩ }
      -- The text that was not set is executed as an empty one.
      let db := if out.read = .script then { db with executed := db.executed ++ [version] } else db
      if out.read = .script && !out.script then (db, NEU_ERR_EINTERNAL)
      else if !out.update then (db, NEU_ERR_EINTERNAL)
      else ({ db with migrations := db.migrations.insert version ⟨description, false⟩ }, 0)

/-- The head version and whether it is dirty. A query that fails at its step is taken for an empty
one. -/
def getSchemaVersion (db : SchemaDb) (prepare step : Bool) : Option (Option CStr × Bool) :=
  if !prepare then none
  else if !step then some (none, false)
  else match Table.highest CStr.chars db.migrations.entries with
  | some (version, row) => some (some version, row.dirty)
  | none => some (none, false)

/-- A call of `apply_schemas`: what is in the directory at that time, and what fails. -/
structure ApplyCall where
  dir : CStr
  createTable : Bool
  headPrepare : Bool
  headStep : Bool
  listing : Option (List CStr)
  outcome : CStr → FileOutcome

def collectSchemas (call : ApplyCall) : Option (List CStr) :=
  call.listing.map fun names => names.filter fun name => endsWith name.chars ".sql".toList

def schemaVersionCmp (a b : CStr) : Prop := a.chars ≤ b.chars

instance : DecidableRel schemaVersionCmp := fun a b => inferInstanceAs (Decidable (a.chars ≤ b.chars))

def applyFiles (call : ApplyCall) : List CStr → SchemaDb → SchemaDb × Int
  | [], db => (db, 0)
  | file :: rest, db =>
    let applied := applySchemaFile db call.dir file (call.outcome file)
    if applied.2 ≠ 0 then (applied.1, NEU_ERR_EINTERNAL) else applyFiles call rest applied.1

def applySchemas (db : SchemaDb) (call : ApplyCall) : SchemaDb × Int :=
  if !call.createTable then (db, NEU_ERR_EINTERNAL)
  else match getSchemaVersion db call.headPrepare call.headStep with
  | none => (db, NEU_ERR_EINTERNAL)
  | some (_, dirty) =>
    if dirty then (db, NEU_ERR_EINTERNAL)
    else match collectSchemas call with
    | none => (db, NEU_ERR_EINTERNAL)
    | some files => applyFiles call (files.insertionSort schemaVersionCmp) db

def schemaStep (db : SchemaDb) (call : ApplyCall) : Option SchemaDb := some (applySchemas db call).1

def newDatabase : SchemaDb := ⟨.empty, []⟩

/- One file. -/

def FileOutcome.StopsDirty (out : FileOutcome) : Prop :=
  out.count = true ∧ out.read ≠ .failed ∧ out.insert = true ∧
    (out.update = false ∨ out.read = .script ∧ out.script = false)

instance : DecidablePred FileOutcome.StopsDirty := fun out =>
  inferInstanceAs (Decidable (out.count = true ∧ out.read ≠ .failed ∧ out.insert = true ∧
    (out.update = false ∨ out.read = .script ∧ out.script = false)))

theorem applySchemaFile_cases (db : SchemaDb) (dir file : CStr) (out : FileOutcome) :
    (applySchemaFile db dir file out).1 = db ∨
      ∃ version description executed, extractSchemaInfo file = some (version, description) ∧
        db.migrations.find version = none ∧
        (executed = db.executed ∨ executed = db.executed ++ [version]) ∧
        (out.StopsDirty ∧ applySchemaFile db dir file out =
            (⟨db.migrations.insert version ⟨description, true⟩, executed⟩, NEU_ERR_EINTERNAL) ∨
          applySchemaFile db dir file out =
            (⟨(db.migrations.insert version ⟨description, true⟩).insert version
              ⟨description, false⟩, executed⟩, 0)) := by
  unfold applySchemaFile
  simp only
  split
  · exact .inl rfl
  split
  · exact .inl rfl
  next version description named =>
  split
  · exact .inl rfl
  next applies =>
  split
  · exact .inl rfl
  next readable =>
  split
  · exact .inl rfl
  next inserted =>
  obtain ⟨counted, absent⟩ : out.count = true ∧ db.migrations.find version = none := by
    unfold shouldApply at applies
    split at applies
    · omega
    next counted =>
    split at applies
    · omega
    · next missing => exact ⟨by simpa using counted, Option.not_isSome_iff_eq_none.1 missing⟩
  have inserted : out.insert = true := by simpa using inserted
  by_cases script : out.read = .script
  · refine .inr ⟨version, description, db.executed ++ [version], named, absent, .inr rfl, ?_⟩
    simp only [script, if_true, decide_true, Bool.true_and]
    split
    · next fails =>
      rw [Bool.not_eq_true'] at fails
      exact .inl ⟨⟨counted, readable, inserted, .inr ⟨script, fails⟩⟩, rfl⟩
    split
    · next stale =>
      rw [Bool.not_eq_true'] at stale
      exact .inl ⟨⟨counted, readable, inserted, .inl stale⟩, rfl⟩
    · exact .inr rfl
  · refine .inr ⟨version, description, db.executed, named, absent, .inl rfl, ?_⟩
    simp only [script, if_false, decide_false, Bool.false_and, Bool.false_eq_true]
    split
    · next stale =>
      rw [Bool.not_eq_true'] at stale
      exact .inl ⟨⟨counted, readable, inserted, .inl stale⟩, rfl⟩
    · exact .inr rfl

/- At most once. -/

structure Once (db : SchemaDb) : Prop where
  once : db.executed.Nodup
  recorded : ∀ version ∈ db.executed, version ∈ db.migrations.keys

section
variable {db : SchemaDb} {version : CStr} {description : CStr} {executed : List CStr}

theorem once_insert (once : Once db) (absent : db.migrations.find version = none)
    (ran : executed = db.executed ∨ executed = db.executed ++ [version])
    {migrations : Table CStr Migration}
    (keys : ∀ v, v ∈ migrations.keys ↔ v ∈ db.migrations.keys ∨ v = version) :
    Once ⟨migrations, executed⟩ := by
  have fresh : version ∉ db.executed := by
    intro inside
    exact Table.find_eq_none.1 absent (once.recorded version inside)
  rcases ran with rfl | rfl
  · refine ⟨once.once, fun v inside => ?_⟩
    rw [keys]
    exact .inl (once.recorded v inside)
  · refine ⟨List.nodup_append.2 ⟨once.once, List.nodup_singleton version, ?_⟩, ?_⟩
    · intro v inside w last
      rw [List.mem_singleton.1 last]
      rintro rfl
      exact fresh inside
    · intro v inside
      rw [keys]
      rcases List.mem_append.1 inside with before | last
      · exact .inl (once.recorded v before)
      · exact .inr (List.mem_singleton.1 last)

theorem mem_keys_marked (migrations : Table CStr Migration) (row row' : Migration) (v : CStr) :
    v ∈ ((migrations.insert version row).insert version row').keys ↔
      v ∈ migrations.keys ∨ v = version := by
  rw [Table.mem_keys_insert, Table.mem_keys_insert, or_assoc, or_self]

theorem applySchemaFile_once (once : Once db) (dir file : CStr) (out : FileOutcome) :
    Once (applySchemaFile db dir file out).1 := by
  obtain same | ⟨version, description, executed, _, absent, ran, ⟨_, result⟩ | result⟩ :=
    applySchemaFile_cases db dir file out
  · rw [same]
    exact once
  · rw [result]
    exact once_insert once absent ran fun v => Table.mem_keys_insert
  · rw [result]
    exact once_insert once absent ran fun v => mem_keys_marked _ _ _ v

theorem applyFiles_once (call : ApplyCall) (files : List CStr) (once : Once db) :
    Once (applyFiles call files db).1 := by
  induction files generalizing db with
  | nil => exact once
  | cons file rest ih =>
    have applied := applySchemaFile_once once call.dir file (call.outcome file)
    unfold applyFiles
    simp only
    split
    · exact applied
    · exact ih applied

theorem applySchemas_once (once : Once db) (call : ApplyCall) : Once (applySchemas db call).1 := by
  unfold applySchemas
  split
  · exact once
  split
  · exact once
  split
  · exact once
  split
  · exact once
  · exact applyFiles_once call _ once

end

/- Dirty rows. -/

theorem lt_of_take_lt {n : ℕ} {a b : List Char} (first : a.take n < b.take n) : a < b := by
  induction n generalizing a b with
  | zero =>
    rw [List.take_zero, List.take_zero] at first
    exact absurd first (lt_irrefl _)
  | succ n ih =>
    cases b with
    | nil =>
      rw [List.take_nil] at first
      exact absurd first (List.not_lt_nil _)
    | cons y ys =>
      cases a with
      | nil => exact List.nil_lt_cons y ys
      | cons x xs =>
        rw [List.take_succ_cons, List.take_succ_cons, List.cons_lt_cons_iff] at first
        rw [List.cons_lt_cons_iff]
        rcases first with less | ⟨same, further⟩
        · exact .inl less
        · exact .inr ⟨same, ih further⟩

theorem version_chars {file version description : CStr}
    (named : extractSchemaInfo file = some (version, description)) :
    version.chars = file.chars.take 4 := by
  unfold extractSchemaInfo at named
  split at named
  · cases named
  split at named
  · cases named
  split at named
  · cases named
  · cases named
    rfl

theorem version_mono {file file' version version' description description' : CStr}
    (order : schemaVersionCmp file file')
    (named : extractSchemaInfo file = some (version, description))
    (named' : extractSchemaInfo file' = some (version', description')) :
    version.chars ≤ version'.chars := by
  rw [version_chars named, version_chars named']
  apply not_lt.1
  intro less
  exact absurd order (not_le.2 (lt_of_take_lt less))

def DirtyLast (db : SchemaDb) : Prop :=
  ∀ version row, db.migrations.find version = some row → row.dirty = true →
    ∀ w ∈ db.migrations.keys, w.chars ≤ version.chars

def Clean (db : SchemaDb) : Prop :=
  ∀ version row, db.migrations.find version = some row → row.dirty = false

/-- A file of a version that is not known stops dirty only above the known versions, and the head
query does not fail while a row is dirty. -/
def SchemasAllowed (db : SchemaDb) (call : ApplyCall) : Prop :=
  (∀ file ∈ call.listing.getD [], ∀ info ∈ extractSchemaInfo file,
      (call.outcome file).StopsDirty → info.1 ∉ db.migrations.keys →
        ∀ w ∈ db.migrations.keys, w.chars ≤ info.1.chars) ∧
    ((∃ row ∈ db.migrations.values, row.dirty = true) → call.headStep = true)

instance : ∀ db call, Decidable (SchemasAllowed db call) := fun db call =>
  inferInstanceAs (Decidable ((∀ file ∈ call.listing.getD [], ∀ info ∈ extractSchemaInfo file,
      (call.outcome file).StopsDirty → info.1 ∉ db.migrations.keys →
        ∀ w ∈ db.migrations.keys, w.chars ≤ info.1.chars) ∧
    ((∃ row ∈ db.migrations.values, row.dirty = true) → call.headStep = true)))

theorem dirtyLast_of_clean {db : SchemaDb} (clean : Clean db) : DirtyLast db := by
  intro version row found dirty
  rw [clean version row found] at dirty
  cases dirty

theorem clean_marked {db : SchemaDb} {version description : CStr} {executed : List CStr}
    (clean : Clean db) :
    Clean ⟨(db.migrations.insert version ⟨description, true⟩).insert version ⟨description, false⟩,
      executed⟩ := by
  intro v row found
  change ((db.migrations.insert version ⟨description, true⟩).insert version
    ⟨description, false⟩).find v = some row at found
  rw [Table.find_insert] at found
  split at found
  · cases found
    rfl
  · next other =>
    rw [Table.find_insert, if_neg other] at found
    exact clean v row found

/-- The files are left in their order: what the call inserted is at most what is still to come. -/
theorem applyFiles_dirtyLast (call : ApplyCall) (old : List CStr) (files : List CStr)
    (sorted : files.Pairwise schemaVersionCmp) {db : SchemaDb} (clean : Clean db)
    (kept : ∀ w ∈ old, w ∈ db.migrations.keys)
    (behind : ∀ w ∈ db.migrations.keys, w ∈ old ∨
      ∀ file ∈ files, ∀ info ∈ extractSchemaInfo file, w.chars ≤ info.1.chars)
    (above : ∀ file ∈ files, ∀ info ∈ extractSchemaInfo file, (call.outcome file).StopsDirty →
      info.1 ∉ old → ∀ w ∈ old, w.chars ≤ info.1.chars) :
    DirtyLast (applyFiles call files db).1 := by
  induction files generalizing db with
  | nil => exact dirtyLast_of_clean clean
  | cons file rest ih =>
    have later := (List.pairwise_cons.1 sorted).1
    have tail {db : SchemaDb} (clean : Clean db) (kept : ∀ w ∈ old, w ∈ db.migrations.keys)
        (behind : ∀ w ∈ db.migrations.keys, w ∈ old ∨
          ∀ file ∈ rest, ∀ info ∈ extractSchemaInfo file, w.chars ≤ info.1.chars) :
        DirtyLast (applyFiles call rest db).1 :=
      ih (List.pairwise_cons.1 sorted).2 clean kept behind
        fun other inside => above other (List.mem_cons_of_mem file inside)
    have remaining : ∀ w ∈ db.migrations.keys, w ∈ old ∨
        ∀ file ∈ rest, ∀ info ∈ extractSchemaInfo file, w.chars ≤ info.1.chars := by
      intro w inside
      rcases behind w inside with before | below
      · exact .inl before
      · exact .inr fun other further => below other (List.mem_cons_of_mem file further)
    unfold applyFiles
    simp only
    obtain same | ⟨version, description, executed, named, absent, _, ⟨stops, result⟩ | result⟩ :=
      applySchemaFile_cases db call.dir file (call.outcome file)
    · rw [same]
      split
      · exact dirtyLast_of_clean clean
      · exact tail clean kept remaining
    · rw [result, if_pos (show NEU_ERR_EINTERNAL ≠ 0 by decide)]
      intro v row found dirty w inside
      change (db.migrations.insert version ⟨description, true⟩).find v = some row at found
      change w ∈ (db.migrations.insert version ⟨description, true⟩).keys at inside
      have fresh : version ∉ old := fun known => Table.find_eq_none.1 absent (kept version known)
      rw [Table.find_insert] at found
      split at found
      · next here =>
        subst here
        rcases Table.mem_keys_insert.1 inside with before | here
        · rcases behind w before with known | below
          · exact above file List.mem_cons_self (v, description) named stops fresh w known
          · exact below file List.mem_cons_self (v, description) named
        · rw [here]
      · rw [clean v row found] at dirty
        cases dirty
    · rw [result, if_neg (not_not.2 rfl)]
      apply tail (clean_marked clean)
      · intro w known
        exact (mem_keys_marked _ _ _ w).2 (.inl (kept w known))
      · intro w inside
        rcases (mem_keys_marked _ _ _ w).1 inside with before | here
        · exact remaining w before
        · right
          intro other further info named'
          rw [here]
          exact version_mono (later other further) named named'

theorem getSchemaVersion_dirty {db : SchemaDb} (prepare : Bool) (last : DirtyLast db)
    (dirty : ∃ row ∈ db.migrations.values, row.dirty = true) :
    getSchemaVersion db prepare true = none ∨
      ∃ version, getSchemaVersion db prepare true = some (version, true) := by
  obtain ⟨row, inside, marked⟩ := dirty
  obtain ⟨version, found⟩ := Table.mem_values.1 inside
  cases prepare with
  | false => exact .inl rfl
  | true =>
    right
    cases head : Table.highest CStr.chars db.migrations.entries with
    | none =>
      rw [Table.highest_eq_none] at head
      have absent := Table.find_eq_some.1 found
      rw [head] at absent
      cases absent
    | some first =>
      obtain ⟨member, top⟩ := Table.highest_spec head
      have key : first.1 ∈ db.migrations.keys := List.mem_map_of_mem member
      have same : first.1 = version :=
        CStr.ext (le_antisymm (last version row found marked _ key)
          (top _ (Table.find_eq_some.1 found)))
      have stored : db.migrations.find version = some first.2 := by
        rw [← same]
        exact Table.find_eq_some.2 member
      rw [found, Option.some.injEq] at stored
      refine ⟨some first.1, ?_⟩
      simp [getSchemaVersion, head, ← stored, marked]

theorem applySchemas_blocked {db : SchemaDb} {call : ApplyCall} (last : DirtyLast db)
    (dirty : ∃ row ∈ db.migrations.values, row.dirty = true) (query : call.headStep = true) :
    applySchemas db call = (db, NEU_ERR_EINTERNAL) := by
  unfold applySchemas
  rw [query]
  split
  · rfl
  · rcases getSchemaVersion_dirty call.headPrepare last dirty with failed | ⟨version, head⟩
    · rw [failed]
    · rw [head]
      rfl

theorem clean_of_no_dirty {db : SchemaDb} (none : ¬ ∃ row ∈ db.migrations.values, row.dirty = true) :
    Clean db := by
  intro version row found
  apply Bool.eq_false_iff.2
  intro dirty
  exact none ⟨row, Table.mem_values.2 ⟨version, found⟩, dirty⟩

theorem applySchemas_dirtyLast {db : SchemaDb} {call : ApplyCall} (last : DirtyLast db)
    (allowed : SchemasAllowed db call) : DirtyLast (applySchemas db call).1 := by
  by_cases dirty : ∃ row ∈ db.migrations.values, row.dirty = true
  · rw [applySchemas_blocked last dirty (allowed.2 dirty)]
    exact last
  · have clean := clean_of_no_dirty dirty
    unfold applySchemas
    split
    · exact last
    split
    · exact last
    split
    · exact last
    split
    · exact last
    · next names listed =>
      have total : Std.Total schemaVersionCmp := ⟨fun a b => le_total a.chars b.chars⟩
      have transitive : IsTrans CStr schemaVersionCmp := ⟨fun a b c => le_trans⟩
      apply applyFiles_dirtyLast call db.migrations.keys _ (List.pairwise_insertionSort _ _) clean
      · exact fun w inside => inside
      · exact fun w inside => .inl inside
      · intro file inside info named stops fresh
        rw [List.mem_insertionSort] at inside
        obtain ⟨all, listing, filtered⟩ := Option.map_eq_some_iff.1 listed
        apply allowed.1 file _ info named stops fresh
        rw [listing]
        rw [← filtered] at inside
        exact (List.mem_filter.1 inside).1

theorem schemaStep_dirtyLast (db : SchemaDb) (call : ApplyCall) (last : DirtyLast db)
    (allowed : SchemasAllowed db call) :
    ∃ db', schemaStep db call = some db' ∧ DirtyLast db' :=
  ⟨_, rfl, applySchemas_dirtyLast last allowed⟩

theorem schemaStep_once (db : SchemaDb) (call : ApplyCall) (once : Once db) (_ : True) :
    ∃ db', schemaStep db call = some db' ∧ Once db' :=
  ⟨_, rfl, applySchemas_once once call⟩

theorem schemas_once_and_blocked (calls : List ApplyCall) :
    ∃ db, calls.foldlM schemaStep newDatabase = some db ∧
      (∀ version, db.executed.count version ≤ 1) ∧
      (Along schemaStep SchemasAllowed newDatabase calls →
        (∃ row ∈ db.migrations.values, row.dirty = true) →
          ∀ call : ApplyCall, call.headStep = true →
            (applySchemas db call).2 ≠ 0 ∧ (applySchemas db call).1.executed = db.executed) := by
  have start : Once newDatabase := ⟨List.nodup_nil, fun version inside => nomatch inside⟩
  obtain ⟨db, ran, once⟩ := ends_of_step schemaStep_once start (along_trivial newDatabase calls)
  refine ⟨db, ran, fun version => List.nodup_iff_count_le_one.1 once.once version, ?_⟩
  intro allowed dirty call query
  have empty : DirtyLast newDatabase := by
    intro version row found
    cases found
  obtain ⟨db', ran', last⟩ := ends_of_step schemaStep_dirtyLast empty allowed
  rw [ran, Option.some.injEq] at ran'
  subst ran'
  rw [applySchemas_blocked last dirty query]
  exact ⟨show NEU_ERR_EINTERNAL ≠ 0 by decide, rfl⟩

def scriptsFail (listing failing : List CStr) : ApplyCall where
  dir := .lit "persistence"
  createTable := true
  headPrepare := true
  headStep := true
  listing := some listing
  outcome file := ⟨true, .script, true, !failing.contains file, true⟩

def firstSql : CStr := .lit "0001_first.sql"

def secondSql : CStr := .lit "0002_second.sql"

def thirdSql : CStr := .lit "0003_third.sql"

theorem schemas_once_and_blocked_failing :
    ∃ db, [scriptsFail [firstSql] [firstSql]].foldlM schemaStep newDatabase = some db ∧
      (applySchemas db (scriptsFail [firstSql, secondSql] [])).2 ≠ 0 := by
  obtain ⟨db, ran, _, blocked⟩ := schemas_once_and_blocked [scriptsFail [firstSql] [firstSql]]
  refine ⟨db, ran, (blocked (by decide +kernel) ?_ _ rfl).1⟩
  cases ran
  decide +kernel

/-- A file of a lower version comes later and stops dirty below the head. -/
theorem dirty_below_head :
    ∃ db, [scriptsFail [secondSql] [], scriptsFail [firstSql, secondSql] [firstSql]].foldlM
        schemaStep newDatabase = some db ∧
      (∃ row ∈ db.migrations.values, row.dirty = true) ∧
      (applySchemas db (scriptsFail [secondSql, thirdSql] [])).2 = 0 ∧
      (applySchemas db (scriptsFail [secondSql, thirdSql] [])).1.executed ≠ db.executed :=
  ⟨_, rfl, by decide +kernel⟩

end Cpm
