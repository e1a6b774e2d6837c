import Cpm.Base.Group
import Cpm.Lib.Run

/-! The counters of nodes and tags that `persist.c` keeps beside the database. A statement can fail
for reasons of its own, which its outcome says, and by the constraints of its table. -/
namespace Cpm

open Lib Lib.Run

structure NeuPersistNodeInfo where
  name : CStr
  type : Int
  state : Int
  pluginName : CStr
  deriving DecidableEq

structure Tables where
  nodes : Table CStr NeuPersistNodeInfo
  groups : List (CStr × CStr)
  tags : Table (CStr × CStr × CStr) NeuDatatag

structure Checks where
  node : NeuPersistNodeInfo → Bool
  tag : NeuDatatag → Bool

/-- The connection and the counters. In a transaction `saved` is what a ROLLBACK restores. -/
structure Persister where
  tables : Tables
  saved : Option Tables
  nodeCount : Int
  tagCount : Int

/- Statements. -/

def insertNode (checks : Checks) (tables : Tables) (info : NeuPersistNodeInfo) : Option Tables :=
  if (tables.nodes.find info.name).isSome || !checks.node info then none
  else some { tables with nodes := tables.nodes.insert info.name info }

/-- The foreign keys delete the groups and the tags of the node. -/
def deleteNodeRow (tables : Tables) (name : CStr) : Tables where
  nodes := tables.nodes.erase name
  groups := tables.groups.filter (·.1 ≠ name)
  tags := tables.tags.restrict (·.1 ≠ name)

def insertTag (checks : Checks) (tables : Tables) (driver group : CStr) (tag : NeuDatatag) :
    Option Tables :=
  if (tables.tags.find (driver, group, tag.name)).isSome || !checks.tag tag ||
      !tables.groups.contains (driver, group) then none
  else some { tables with tags := tables.tags.insert (driver, group, tag.name) tag }

def nodeRows (tables : Tables) : Nat := tables.nodes.values.length

def tagRows (tables : Tables) : Nat := tables.tags.values.length

def asInt (n : Nat) : Int := Int.bmod n (2 ^ 32)

/- The functions. -/

def nodeCountAdd (p : Persister) (n : Int) : Persister := { p with nodeCount := p.nodeCount + n }

def tagCountAdd (p : Persister) (n : Int) : Persister := { p with tagCount := p.tagCount + n }

def tagCountLoad (p : Persister) (ok : Bool) : Persister :=
  if ok then { p with tagCount := asInt (tagRows p.tables) } else p

def neuPersisterNodeCount (p : Persister) : Int := p.nodeCount

def neuPersisterTagCount (p : Persister) : Int := p.tagCount

/-- The Monitor is inserted unless it is there, and not counted. -/
def neuPersisterStoreNode (checks : Checks) (p : Persister) (info : NeuPersistNodeInfo)
    (ok : Bool) : Persister × Int :=
  if info.pluginName = .lit "Monitor" then
    if ok then ({ p with tables := (insertNode checks p.tables info).getD p.tables }, 0)
    else (p, NEU_ERR_EINTERNAL)
  else match if ok then insertNode checks p.tables info else none with
    | some tables => (nodeCountAdd { p with tables } 1, 0)
    | none => (p, NEU_ERR_EINTERNAL)

/-- Deleting no row is a success too. -/
def neuPersisterDeleteNode (p : Persister) (name : CStr) (ok reload : Bool) : Persister × Int :=
  if ok then
    (tagCountLoad (nodeCountAdd { p with tables := deleteNodeRow p.tables name } (-1)) reload, 0)
  else (p, NEU_ERR_EINTERNAL)

def neuPersisterStoreTag (checks : Checks) (p : Persister) (driver group : CStr)
    (tag : NeuDatatag) (ok : Bool) : Persister × Int :=
  match if ok then insertTag checks p.tables driver group tag else none with
  | some tables => (tagCountAdd { p with tables } 1, 0)
  | none => (p, NEU_ERR_EINTERNAL)

/-- The rows so far and whether all of them went in. `runs i` says whether the statement for the
i-th tag can be bound and run. -/
def putTags (checks : Checks) (driver group : CStr) (runs : Nat → Bool) :
    Nat → List NeuDatatag → Tables → Tables × Bool
  | _, [], tables => (tables, true)
  | i, tag :: rest, tables =>
    match if runs i then insertTag checks tables driver group tag else none with
    | some tables => putTags checks driver group runs (i + 1) rest tables
    | none => (tables, false)

/-- Which steps of the transaction go through. -/
structure StoreTagsOutcome where
  begin : Bool
  prepare : Bool
  runs : Nat → Bool
  commit : Bool
  rollback : Bool

def neuPersisterStoreTags (checks : Checks) (p : Persister) (driver group : CStr)
    (tags : List NeuDatatag) (out : StoreTagsOutcome) : Persister × Int :=
  if p.saved.isSome || !out.begin then (p, NEU_ERR_EINTERNAL)
  else
    let put := if out.prepare then putTags checks driver group out.runs 0 tags p.tables
      else (p.tables, false)
    if put.2 && out.commit then
      (tagCountAdd { p with tables := put.1 } (asInt tags.length), 0)
    else if out.rollback then (p, NEU_ERR_EINTERNAL)
    else ({ p with tables := put.1, saved := some p.tables }, NEU_ERR_EINTERNAL)

def neuPersisterDeleteTag (p : Persister) (driver group tag : CStr) (ok : Bool) :
    Persister × Int :=
  if ok then
    (tagCountAdd { p with tables.tags := p.tables.tags.erase (driver, group, tag) } (-1), 0)
  else (p, NEU_ERR_EINTERNAL)

/- Runs. -/

inductive PersistOp where
  | storeNode (info : NeuPersistNodeInfo) (ok : Bool)
  | deleteNode (name : CStr) (ok reload : Bool)
  | storeTag (driver group : CStr) (tag : NeuDatatag) (ok : Bool)
  | storeTags (driver group : CStr) (tags : List NeuDatatag) (out : StoreTagsOutcome)
  | deleteTag (driver group tag : CStr) (ok : Bool)

def persistStep (checks : Checks) (p : Persister) : PersistOp → Option Persister
  | .storeNode info ok => some (neuPersisterStoreNode checks p info ok).1
  | .deleteNode name ok reload => some (neuPersisterDeleteNode p name ok reload).1
  | .storeTag driver group tag ok => some (neuPersisterStoreTag checks p driver group tag ok).1
  | .storeTags driver group tags out => some (neuPersisterStoreTags checks p driver group tags out).1
  | .deleteTag driver group tag ok => some (neuPersisterDeleteTag p driver group tag ok).1

/-- What holds after the counts are loaded, and from then on. -/
structure CountsRows (p : Persister) : Prop where
  nodes : neuPersisterNodeCount p = nodeRows p.tables
  tags : neuPersisterTagCount p = tagRows p.tables

/-- Where the counters follow the rows: the Monitor finds itself stored, deletions find their row,
transactions that fail are rolled back, the tags are counted again if any went with their node, and
the numbers of rows stay within an `int`. -/
def CountAllowed (checks : Checks) (p : Persister) : PersistOp → Prop
  | .storeNode info ok => nodeRows p.tables + 1 < 2 ^ 31 ∧
    (info.pluginName = .lit "Monitor" → ok = true →
      (p.tables.nodes.find info.name).isSome ∨ checks.node info = false)
  | .deleteNode name ok reload => ok = true → (p.tables.nodes.find name).isSome ∧
    (reload = true ∨ ∀ key ∈ p.tables.tags.keys, key.1 ≠ name)
  | .storeTag _ _ _ _ => tagRows p.tables + 1 < 2 ^ 31
  | .storeTags _ _ tags out => tagRows p.tables + tags.length < 2 ^ 31 ∧ out.rollback = true
  | .deleteTag driver group tag ok =>
    ok = true → (p.tables.tags.find (driver, group, tag)).isSome

instance (checks : Checks) (p : Persister) : ∀ op, Decidable (CountAllowed checks p op)
  | .storeNode info ok => inferInstanceAs (Decidable (nodeRows p.tables + 1 < 2 ^ 31 ∧
      (info.pluginName = .lit "Monitor" → ok = true →
        (p.tables.nodes.find info.name).isSome ∨ checks.node info = false)))
  | .deleteNode name ok reload => inferInstanceAs (Decidable (ok = true →
      (p.tables.nodes.find name).isSome ∧
        (reload = true ∨ ∀ key ∈ p.tables.tags.keys, key.1 ≠ name)))
  | .storeTag _ _ _ _ => inferInstanceAs (Decidable (tagRows p.tables + 1 < 2 ^ 31))
  | .storeTags _ _ tags out => inferInstanceAs (Decidable
      (tagRows p.tables + tags.length < 2 ^ 31 ∧ out.rollback = true))
  | .deleteTag driver group tag ok => inferInstanceAs (Decidable
      (ok = true → (p.tables.tags.find (driver, group, tag)).isSome))

/- What the statements do to the numbers of rows. -/

theorem asInt_small {n : Nat} (small : n < 2 ^ 31) : asInt n = n := by
  apply Int.bmod_eq_of_le_mul_two
  · omega
  · omega

theorem asInt_lt (n : Nat) : asInt n < 2 ^ 31 := by
  have below : asInt n < (((2 ^ 32 : Nat) : Int) + 1) / 2 := Int.bmod_lt (Nat.two_pow_pos 32)
  omega

theorem asInt_negative {n : Nat} (large : 2 ^ 31 ≤ n) (fits : n < 2 ^ 32) : asInt n < 0 := by
  have apart : ((2 ^ 32 : Nat) : Int) ∣ asInt n - n := Int.dvd_bmod_sub_self
  have below := asInt_lt n
  omega

theorem asInt_le (n : Nat) : asInt n ≤ n := by
  by_cases small : n < 2 ^ 31
  · exact Int.le_of_eq (asInt_small small)
  · have below := asInt_lt n
    omega

theorem asInt_eq_iff (n : Nat) : asInt n = n ↔ n < 2 ^ 31 := by
  constructor
  · intro same
    have below := asInt_lt n
    omega
  · exact asInt_small

theorem inserted_length {κ α : Type*} [DecidableEq κ] {t : Table κ α} {k : κ} (v : α)
    (absent : t.find k = none) : (t.insert k v).values.length = t.values.length + 1 := by
  have perm := Table.insert_values_perm t k v
  rw [Table.erase_absent absent] at perm
  exact perm.length_eq

section
variable {checks : Checks} {tables tables' : Tables} {driver group : CStr}

theorem insertNode_rows {info : NeuPersistNodeInfo}
    (inserted : insertNode checks tables info = some tables') :
    nodeRows tables' = nodeRows tables + 1 ∧ tagRows tables' = tagRows tables := by
  unfold insertNode at inserted
  split at inserted
  · cases inserted
  · next free =>
    cases inserted
    have absent : tables.nodes.find info.name = none := by
      cases found : tables.nodes.find info.name with
      | none => rfl
      | some row => simp [found] at free
    exact ⟨inserted_length info absent, rfl⟩

theorem insertTag_rows {tag : NeuDatatag}
    (inserted : insertTag checks tables driver group tag = some tables') :
    nodeRows tables' = nodeRows tables ∧ tagRows tables' = tagRows tables + 1 := by
  unfold insertTag at inserted
  split at inserted
  · cases inserted
  · next free =>
    cases inserted
    have absent : tables.tags.find (driver, group, tag.name) = none := by
      cases found : tables.tags.find (driver, group, tag.name) with
      | none => rfl
      | some row => simp [found] at free
    exact ⟨rfl, inserted_length tag absent⟩

theorem putTags_rows {runs : Nat → Bool} {i : Nat} {tags : List NeuDatatag}
    (all : (putTags checks driver group runs i tags tables).2 = true) :
    nodeRows (putTags checks driver group runs i tags tables).1 = nodeRows tables ∧
      tagRows (putTags checks driver group runs i tags tables).1 = tagRows tables + tags.length := by
  induction tags generalizing i tables with
  | nil => exact ⟨rfl, rfl⟩
  | cons tag rest ih =>
    unfold putTags at all ⊢
    split at all
    · next next inserted =>
      obtain ⟨nodes, tags⟩ := ih all
      have ran := (Option.ite_none_right_eq_some.1 inserted).2
      obtain ⟨nodes', tags'⟩ := insertTag_rows ran
      rw [List.length_cons]
      exact ⟨by omega, by omega⟩
    · cases all

theorem deleteNodeRow_rows {name : CStr} (found : (tables.nodes.find name).isSome) :
    nodeRows (deleteNodeRow tables name) + 1 = nodeRows tables ∧
      tagRows (deleteNodeRow tables name) ≤ tagRows tables := by
  obtain ⟨row, found⟩ := Option.isSome_iff_exists.1 found
  exact ⟨(Table.values_perm found).length_eq.symm, Table.restrict_values_length _ _⟩

theorem deleteNodeRow_tags {name : CStr} (none : ∀ key ∈ tables.tags.keys, key.1 ≠ name) :
    tagRows (deleteNodeRow tables name) = tagRows tables := by
  have all : ∀ key ∈ tables.tags.keys, decide (key.1 ≠ name) = true := by
    intro key member
    simpa using none key member
  exact congrArg List.length (Table.restrict_all all)

end

/- The functions. -/

structure Kept (p : Persister) : Prop where
  counts : CountsRows p
  small : tagRows p.tables < 2 ^ 31

section
variable {checks : Checks} {p : Persister}

theorem storeNode_kept {info : NeuPersistNodeInfo} {ok : Bool} (kept : Kept p)
    (allowed : CountAllowed checks p (.storeNode info ok)) :
    Kept (neuPersisterStoreNode checks p info ok).1 := by
  obtain ⟨⟨nodes, tags⟩, small⟩ := kept
  unfold neuPersisterStoreNode
  split
  · next monitor =>
    split
    · next ran =>
      have refused : insertNode checks p.tables info = none := by
        unfold insertNode
        rcases allowed.2 monitor ran with found | invalid
        · simp [found]
        · simp [invalid]
      rw [refused]
      exact ⟨⟨nodes, tags⟩, small⟩
    · exact ⟨⟨nodes, tags⟩, small⟩
  split
  · next tables inserted =>
    have ran := (Option.ite_none_right_eq_some.1 inserted).2
    obtain ⟨more, same⟩ := insertNode_rows ran
    have counted : p.nodeCount = nodeRows p.tables := nodes
    have tagged : p.tagCount = tagRows p.tables := tags
    refine ⟨⟨?_, ?_⟩, ?_⟩
    · change p.nodeCount + 1 = nodeRows tables
      omega
    · change p.tagCount = tagRows tables
      omega
    · change tagRows tables < 2 ^ 31
      omega
  · exact ⟨⟨nodes, tags⟩, small⟩

theorem deleteNode_kept {name : CStr} {ok reload : Bool} (kept : Kept p)
    (allowed : CountAllowed checks p (.deleteNode name ok reload)) :
    Kept (neuPersisterDeleteNode p name ok reload).1 := by
  obtain ⟨⟨nodes, tags⟩, small⟩ := kept
  unfold neuPersisterDeleteNode
  split
  · next ran =>
    obtain ⟨found, counted⟩ := allowed ran
    obtain ⟨fewer, atMost⟩ := deleteNodeRow_rows found
    have before : p.nodeCount = nodeRows p.tables := nodes
    have after : p.nodeCount + -1 = nodeRows (deleteNodeRow p.tables name) := by omega
    have fits : tagRows (deleteNodeRow p.tables name) < 2 ^ 31 := by omega
    have recounted := asInt_small fits
    simp only [tagCountLoad, nodeCountAdd]
    split
    · refine ⟨⟨after, ?_⟩, fits⟩
      rw [neuPersisterTagCount, recounted]
    · next stale =>
      have untouched := deleteNodeRow_tags (counted.resolve_left stale)
      have same : p.tagCount = tagRows (deleteNodeRow p.tables name) := by
        rw [untouched]
        exact tags
      exact ⟨⟨after, same⟩, fits⟩
  · exact ⟨⟨nodes, tags⟩, small⟩

theorem storeTag_kept {driver group : CStr} {tag : NeuDatatag} {ok : Bool} (kept : Kept p)
    (allowed : CountAllowed checks p (.storeTag driver group tag ok)) :
    Kept (neuPersisterStoreTag checks p driver group tag ok).1 := by
  obtain ⟨⟨nodes, tags⟩, small⟩ := kept
  unfold neuPersisterStoreTag
  split
  · next tables inserted =>
    have ran := (Option.ite_none_right_eq_some.1 inserted).2
    obtain ⟨same, more⟩ := insertTag_rows ran
    have counted : p.nodeCount = nodeRows p.tables := nodes
    have tagged : p.tagCount = tagRows p.tables := tags
    rw [CountAllowed] at allowed
    refine ⟨⟨?_, ?_⟩, ?_⟩
    · change p.nodeCount = nodeRows tables
      omega
    · change p.tagCount + 1 = tagRows tables
      omega
    · change tagRows tables < 2 ^ 31
      omega
  · exact ⟨⟨nodes, tags⟩, small⟩

theorem storeTags_kept {driver group : CStr} {tags : List NeuDatatag} {out : StoreTagsOutcome}
    (kept : Kept p) (allowed : CountAllowed checks p (.storeTags driver group tags out)) :
    Kept (neuPersisterStoreTags checks p driver group tags out).1 := by
  obtain ⟨fewer, rollback⟩ := allowed
  unfold neuPersisterStoreTags
  split
  · exact kept
  cases prepared : out.prepare with
  | false =>
    simp only [Bool.false_eq_true, if_false, Bool.false_and]
    exact kept
  | true =>
    simp only [if_true]
    split
    · next committed =>
      obtain ⟨same, more⟩ := putTags_rows (Bool.and_eq_true_iff.1 committed).1
      obtain ⟨⟨nodes, tagged⟩, small⟩ := kept
      have number : asInt tags.length = tags.length := asInt_small (by omega)
      rw [number]
      change p.nodeCount = nodeRows p.tables at nodes
      change p.tagCount = tagRows p.tables at tagged
      refine ⟨⟨?_, ?_⟩, ?_⟩
      · change p.nodeCount = nodeRows (putTags checks driver group out.runs 0 tags p.tables).1
        omega
      · change p.tagCount + tags.length =
          tagRows (putTags checks driver group out.runs 0 tags p.tables).1
        omega
      · change tagRows (putTags checks driver group out.runs 0 tags p.tables).1 < 2 ^ 31
        omega
    · exact kept

theorem deleteTag_kept {driver group tag : CStr} {ok : Bool} (kept : Kept p)
    (allowed : CountAllowed checks p (.deleteTag driver group tag ok)) :
    Kept (neuPersisterDeleteTag p driver group tag ok).1 := by
  unfold neuPersisterDeleteTag
  split
  · next ran =>
    obtain ⟨row, found⟩ := Option.isSome_iff_exists.1 (allowed ran)
    obtain ⟨⟨nodes, tagged⟩, small⟩ := kept
    have fewer : tagRows p.tables =
        (p.tables.tags.erase (driver, group, tag)).values.length + 1 :=
      (Table.values_perm found).length_eq
    change p.tagCount = tagRows p.tables at tagged
    refine ⟨⟨nodes, ?_⟩, ?_⟩
    · change p.tagCount + -1 = (p.tables.tags.erase (driver, group, tag)).values.length
      omega
    · change (p.tables.tags.erase (driver, group, tag)).values.length < 2 ^ 31
      omega
  · exact kept

theorem persistStep_kept (op : PersistOp) (kept : Kept p) (allowed : CountAllowed checks p op) :
    ∃ p', persistStep checks p op = some p' ∧ Kept p' := by
  cases op with
  | storeNode info ok => exact ⟨_, rfl, storeNode_kept kept allowed⟩
  | deleteNode name ok reload => exact ⟨_, rfl, deleteNode_kept kept allowed⟩
  | storeTag driver group tag ok => exact ⟨_, rfl, storeTag_kept kept allowed⟩
  | storeTags driver group tags out => exact ⟨_, rfl, storeTags_kept kept allowed⟩
  | deleteTag driver group tag ok => exact ⟨_, rfl, deleteTag_kept kept allowed⟩

end

theorem counts_follow_rows (checks : Checks) (p : Persister) (ops : List PersistOp)
    (loaded : CountsRows p) (small : tagRows p.tables < 2 ^ 31)
    (allowed : Along (persistStep checks) (CountAllowed checks) p ops) :
    ∃ p', ops.foldlM (persistStep checks) p = some p' ∧ CountsRows p' := by
  have progress (p : Persister) (op : PersistOp) (kept : Kept p) (meets : CountAllowed checks p op) :
      ∃ p', persistStep checks p op = some p' ∧ Kept p' := persistStep_kept op kept meets
  obtain ⟨p', ran, kept⟩ := ends_of_step progress ⟨loaded, small⟩ allowed
  exact ⟨p', ran, kept.counts⟩

/-- `length()` of SQLite counts the bytes that do not continue a character. -/
def sqlLength (text : CStr) : Nat :=
  (text.chars.foldl (fun (count, within) c =>
    if within && 0x80 ≤ c.toNat && c.toNat < 0xC0 then (count, true)
    else (count + 1, decide (0xC0 ≤ c.toNat))) (0, false)).1

/-- The CHECK constraints of the schema on nodes; those on tags are left to the database. -/
def declaredChecks (tag : NeuDatatag → Bool) : Checks where
  node info := sqlLength info.name ≤ 32 && (info.type = 1 || info.type = 2) &&
    (1 ≤ info.state && info.state ≤ 4) && sqlLength info.pluginName ≤ 32
  tag := tag

def emptyPersister : Persister := ⟨⟨.empty, [], .empty⟩, none, 0, 0⟩

def modbusNode : NeuPersistNodeInfo := ⟨.lit "modbus", 1, 1, .lit "Modbus TCP"⟩

theorem counts_follow_rows_twice : ∃ p', [PersistOp.storeNode modbusNode true,
      .storeNode modbusNode true, .deleteNode modbusNode.name true true].foldlM
        (persistStep (declaredChecks fun _ => true)) emptyPersister = some p' ∧ CountsRows p' :=
  counts_follow_rows _ emptyPersister _ ⟨rfl, rfl⟩ (by decide) (by decide +kernel)

/-- A node that is not there is deleted, and the counter takes one off. -/
theorem missing_node_counted : ∃ p', [PersistOp.deleteNode modbusNode.name true true].foldlM
      (persistStep (declaredChecks fun _ => true)) emptyPersister = some p' ∧ ¬ CountsRows p' := by
  refine ⟨_, rfl, fun counts => ?_⟩
  have nodes : (-1 : Int) = 0 := counts.nodes
  cases nodes

end Cpm
