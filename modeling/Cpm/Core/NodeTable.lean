import Cpm.Core.ManagerLoop
import Cpm.Utils.UthashRun

/-! `node_manager.c` over a table of `uthash.h`, whose elements are addresses of node entities,
and the table of nodes that the requests of the manager see. -/
namespace Cpm

open Lib

/-- `node_entity_t`, with what its adapter says. The key of its hash handle is its name. -/
structure NodeCell where
  name : CStr
  entity : NodeEntity
  facts : NodeFacts
  deriving DecidableEq, Repr

structure NeuNodeManager where
  nodes : UtHash CStr ℕ
  cells : ℕ → NodeCell

structure NodeInfo where
  node : CStr
  plugin : CStr
  deriving DecidableEq, Repr

namespace NodeCell

def fresh (entity : NodeEntity) (facts : NodeFacts) : NodeCell :=
  ⟨entity.adapter.name, entity, { facts with pipe := 0 }⟩

def info (c : NodeCell) : NodeInfo := ⟨c.entity.adapter.name, c.facts.moduleName⟩

def shown (c : NodeCell) : Bool := !c.entity.isStatic && c.entity.display

def hasType (type : ℕ) (c : NodeCell) : Bool := c.entity.adapter.moduleType.code &&& type ≠ 0

def filtered (plugin node : CStr) (c : NodeCell) : Bool :=
  (plugin.chars = [] || c.facts.moduleName = plugin) &&
    (node.chars = [] || node.chars <:+: c.entity.adapter.name.chars)

def state (c : NodeCell) : NodesState :=
  ⟨c.entity.adapter.name, c.entity.adapter.state, c.facts.link, c.facts.rtt⟩

end NodeCell

inductive NodeAnswer where
  | code (rv : Int)
  | nothing
  | count (n : ℕ)
  | flag (b : Bool)
  | adapter (found : Option NeuAdapter)
  | pipe (id : ℕ)
  | adapters (all : List NeuAdapter)
  | infos (all : List NodeInfo)
  | pipes (all : List ℕ)
  | states (all : List NodesState)
  deriving DecidableEq

/-- The functions that read, on the entity of a name or on all entities in the order of the
table. -/
inductive NodeRead where
  | size
  | existUninit
  | get (type : ℕ)
  | filter (type : ℕ) (plugin node : CStr)
  | getAll
  | getAdapter (type : NeuNodeType)
  | find (name : CStr)
  | isSingle (name : CStr)
  | isDriver (name : CStr)
  | getPipes (type : ℕ)
  | getPipesAll
  | getPipe (name : CStr)
  | getState

/-- The count is returned as a `uint16_t`. -/
def NodeRead.answer (found : CStr → Option NodeCell) (all : List NodeCell) (items : ℕ) :
    NodeRead → NodeAnswer
  | size => .count (items % 2 ^ 16)
  | existUninit => .flag (all.any fun c => c.facts.pipe = 0)
  | get type => .infos ((all.filter fun c => c.shown && c.hasType type).map NodeCell.info)
  | filter type plugin node =>
    .infos ((all.filter fun c => c.shown && c.hasType type && c.filtered plugin node).map
      NodeCell.info)
  | getAll => .infos (all.map NodeCell.info)
  | getAdapter type =>
    .adapters ((all.filter fun c => c.shown && c.entity.adapter.moduleType = type).map
      fun c => c.entity.adapter)
  | find name => .adapter ((found name).map fun c => c.entity.adapter)
  | isSingle name => .flag ((found name).elim false fun c => c.entity.single)
  | isDriver name => .flag ((found name).elim false fun c => c.entity.adapter.moduleType = .driver)
  | getPipes type =>
    .pipes ((all.filter fun c => !c.entity.isStatic && c.hasType type).map fun c => c.facts.pipe)
  | getPipesAll => .pipes (all.map fun c => c.facts.pipe)
  | getPipe name => .pipe ((found name).elim 0 fun c => c.facts.pipe)
  | getState => .states ((all.filter NodeCell.shown).map NodeCell.state)

/-- `adapterChanged` is what the users of a found adapter do to it. -/
inductive NodeCall where
  | add (adapter : NeuAdapter) (facts : NodeFacts)
  | addStatic (adapter : NeuAdapter) (facts : NodeFacts)
  | addSingle (adapter : NeuAdapter) (facts : NodeFacts) (display : Bool)
  | updateName (name newName : CStr)
  | update (name : CStr) (pipe : ℕ)
  | del (name : CStr)
  | adapterChanged (name : CStr) (adapter : NeuAdapter)
  | read (r : NodeRead)

abbrev Calloc := ∀ held : List ℕ, { addr : ℕ // addr ∉ held }

namespace NeuNodeManager

variable (hash : CStr → ℕ) (calloc : Calloc)

def entityAt (mgr : NeuNodeManager) (name : CStr) : Option ℕ :=
  (hashFind hash mgr.nodes name).map UtHashHandle.elem

def create (cells : ℕ → NodeCell) : NeuNodeManager := ⟨none, cells⟩

/-- The common part of the three ways to add a node. Nothing looks for a node of that name. -/
def addEntity (mgr : NeuNodeManager) (entity : NodeEntity) (facts : NodeFacts) :
    NeuNodeManager :=
  let addr := (calloc (hashIter mgr.nodes)).1
  { nodes := hashAdd hash mgr.nodes entity.adapter.name addr
    cells := Function.update mgr.cells addr (.fresh entity facts) }

def neuNodeManagerAdd (mgr : NeuNodeManager) (adapter : NeuAdapter) (facts : NodeFacts) :
    NeuNodeManager :=
  mgr.addEntity hash calloc ⟨adapter, false, true, false⟩ facts

def neuNodeManagerAddStatic (mgr : NeuNodeManager) (adapter : NeuAdapter) (facts : NodeFacts) :
    NeuNodeManager :=
  mgr.addEntity hash calloc ⟨adapter, true, true, false⟩ facts

def neuNodeManagerAddSingle (mgr : NeuNodeManager) (adapter : NeuAdapter) (facts : NodeFacts)
    (display : Bool) : NeuNodeManager :=
  mgr.addEntity hash calloc ⟨adapter, false, display, true⟩ facts

/-- The entity leaves the table before its name changes and comes back behind the others. -/
def neuNodeManagerUpdateName (mgr : NeuNodeManager) (name newName : CStr) :
    NeuNodeManager × Int :=
  match hashFind hash mgr.nodes name with
  | none => (mgr, NEU_ERR_NODE_NOT_EXIST)
  | some h =>
    ({ nodes := hashAdd hash (hashDelete mgr.nodes h) newName h.elem
       cells := Function.update mgr.cells h.elem { mgr.cells h.elem with name := newName } }, 0)

def setPipe (pipe : ℕ) (c : NodeCell) : NodeCell := { c with facts := { c.facts with pipe } }

def setAdapter (adapter : NeuAdapter) (c : NodeCell) : NodeCell :=
  { c with entity := { c.entity with adapter } }

def written (mgr : NeuNodeManager) (addr : ℕ) (f : NodeCell → NodeCell) : NeuNodeManager :=
  { mgr with cells := Function.update mgr.cells addr (f (mgr.cells addr)) }

def neuNodeManagerUpdate (mgr : NeuNodeManager) (name : CStr) (pipe : ℕ) : NeuNodeManager × Int :=
  match mgr.entityAt hash name with
  | none => (mgr, -1)
  | some addr => (mgr.written addr (setPipe pipe), 0)

def neuNodeManagerDel (mgr : NeuNodeManager) (name : CStr) : NeuNodeManager :=
  { mgr with nodes := (hashFindDelete hash mgr.nodes name).1 }

def adapterChanged (mgr : NeuNodeManager) (name : CStr) (adapter : NeuAdapter) : NeuNodeManager :=
  match mgr.entityAt hash name with
  | none => mgr
  | some addr => mgr.written addr (setAdapter adapter)

def read (mgr : NeuNodeManager) (r : NodeRead) : NodeAnswer :=
  r.answer (fun name => (mgr.entityAt hash name).map mgr.cells)
    ((hashIter mgr.nodes).map mgr.cells) (hashCount mgr.nodes)

def step (mgr : NeuNodeManager) : NodeCall → Option (NeuNodeManager × NodeAnswer)
  | .add adapter facts => some (mgr.neuNodeManagerAdd hash calloc adapter facts, .code 0)
  | .addStatic adapter facts =>
    some (mgr.neuNodeManagerAddStatic hash calloc adapter facts, .code 0)
  | .addSingle adapter facts display =>
    some (mgr.neuNodeManagerAddSingle hash calloc adapter facts display, .code 0)
  | .updateName name newName =>
    let renamed := mgr.neuNodeManagerUpdateName hash name newName
    some (renamed.1, .code renamed.2)
  | .update name pipe =>
    let bound := mgr.neuNodeManagerUpdate hash name pipe
    some (bound.1, .code bound.2)
  | .del name => some (mgr.neuNodeManagerDel hash name, .nothing)
  | .adapterChanged name adapter => some (mgr.adapterChanged hash name adapter, .nothing)
  | .read r => some (mgr, mgr.read hash r)

end NeuNodeManager

/- The nodes as a finite map. -/

namespace NodeMap

open NeuNodeManager

def added (t : Table CStr NodeCell) (entity : NodeEntity) (facts : NodeFacts) :
    Option (Table CStr NodeCell × NodeAnswer) :=
  if t.find entity.adapter.name = none then
    some (t.insert entity.adapter.name (.fresh entity facts), .code 0)
  else none

/-- The caller adds no node and renames none to a name that is there. -/
def step (t : Table CStr NodeCell) : NodeCall → Option (Table CStr NodeCell × NodeAnswer)
  | .add adapter facts => added t ⟨adapter, false, true, false⟩ facts
  | .addStatic adapter facts => added t ⟨adapter, true, true, false⟩ facts
  | .addSingle adapter facts display => added t ⟨adapter, false, display, true⟩ facts
  | .updateName name newName =>
    match t.find name with
    | none => some (t, .code NEU_ERR_NODE_NOT_EXIST)
    | some c =>
      if (t.erase name).find newName = none then
        some ((t.erase name).insert newName { c with name := newName }, .code 0)
      else none
  | .update name pipe =>
    some (t.modify name (setPipe pipe), .code (if (t.find name).isSome then 0 else -1))
  | .del name => some (t.erase name, .nothing)
  | .adapterChanged name adapter => some (t.modify name (setAdapter adapter), .nothing)
  | .read r => some (t, r.answer t.find t.values t.values.length)

end NodeMap

/-- The table of the manager holds the map, and the key of every entity is its name. -/
structure HoldsNodes (hash : CStr → ℕ) (mgr : NeuNodeManager) (t : Table CStr NodeCell) :
    Prop where
  represents : HoldsPairs hash mgr.cells mgr.nodes t
  named : ∀ name c, t.find name = some c → c.name = name

section
variable {hash : CStr → ℕ} {calloc : Calloc} {mgr : NeuNodeManager} {t : Table CStr NodeCell}

open NeuNodeManager

theorem HoldsNodes.insert (holds : HoldsNodes hash mgr t) {nodes : UtHash CStr ℕ}
    {cells : ℕ → NodeCell} {name : CStr} {c : NodeCell} (own : c.name = name)
    (represents : HoldsPairs hash cells nodes (t.insert name c)) :
    HoldsNodes hash ⟨nodes, cells⟩ (t.insert name c) where
  represents := represents
  named := by
    intro other d found
    obtain ⟨rfl, rfl⟩ | ⟨-, old⟩ := Table.find_insert_some found
    · exact own
    · exact holds.named other d old

theorem HoldsNodes.erase (holds : HoldsNodes hash mgr t) {nodes : UtHash CStr ℕ} {name : CStr}
    (represents : HoldsPairs hash mgr.cells nodes (t.erase name)) :
    HoldsNodes hash ⟨nodes, mgr.cells⟩ (t.erase name) :=
  ⟨represents, fun other d found => holds.named other d (Table.find_erase_some.1 found).2⟩

theorem HoldsNodes.addEntity (holds : HoldsNodes hash mgr t) (entity : NodeEntity)
    (facts : NodeFacts) (t' : Table CStr NodeCell) (seen : NodeAnswer)
    (stepped : NodeMap.added t entity facts = some (t', seen)) :
    ∃ mgr', some (mgr.addEntity hash calloc entity facts, NodeAnswer.code 0) = some (mgr', seen) ∧
      HoldsNodes hash mgr' t' := by
  unfold NodeMap.added at stepped
  split at stepped
  · next absent =>
    cases stepped
    have fresh := (calloc (hashIter mgr.nodes)).2
    have represents := holds.represents.add absent fresh
      (update_others fresh (.fresh entity facts)) (Function.update_self ..)
    exact ⟨_, rfl, holds.insert rfl represents⟩
  · cases stepped

/-- A lookup by name leads to the entity of that name, or the map has none. -/
theorem HoldsNodes.entity_cases (holds : HoldsNodes hash mgr t) (name : CStr) :
    (hashFind hash mgr.nodes name = none ∧ t.find name = none) ∨
      ∃ h ∈ hashHandles mgr.nodes, hashFind hash mgr.nodes name = some h ∧ h.key = name ∧
        t.find name = some (mgr.cells h.elem) := by
  have seen := holds.represents.find name
  obtain ⟨nothing, -⟩ | ⟨h, held, found, same⟩ :=
    hashFind_cases holds.represents.wellFormed name
  · exact .inl ⟨nothing, by rw [← seen, nothing, Option.map_none]⟩
  · exact .inr ⟨h, held, found, same, by rw [← seen, found, Option.map_some]⟩

theorem HoldsNodes.written (holds : HoldsNodes hash mgr t) {h : UtHashHandle CStr ℕ}
    (held : h ∈ hashHandles mgr.nodes) {f : NodeCell → NodeCell}
    (kept : ∀ c, (f c).name = c.name) :
    HoldsNodes hash (mgr.written h.elem f) (t.modify h.key f) where
  represents := holds.represents.write held f
  named := by
    intro name c found
    rw [Table.find_modify] at found
    split at found
    · obtain ⟨old, before, rfl⟩ := Option.map_eq_some_iff.1 found
      exact (kept old).trans (holds.named name old before)
    · exact holds.named name c found

theorem HoldsNodes.renamed (holds : HoldsNodes hash mgr t) {h : UtHashHandle CStr ℕ}
    (held : h ∈ hashHandles mgr.nodes) {newName : CStr}
    (free : (t.erase h.key).find newName = none) :
    HoldsNodes hash
      { nodes := hashAdd hash (hashDelete mgr.nodes h) newName h.elem
        cells := Function.update mgr.cells h.elem { mgr.cells h.elem with name := newName } }
      ((t.erase h.key).insert newName { mgr.cells h.elem with name := newName }) := by
  have removed := holds.represents.delete held
  have nodup := holds.represents.wellFormed.distinct
  have gone : h.elem ∉ hashIter (hashDelete mgr.nodes h) := by
    rw [hashIter, handles_hashDelete]
    intro still
    obtain ⟨k, member, same⟩ := List.mem_map.1 still
    have handles := List.Nodup.of_map _ nodup
    have back := List.mem_of_mem_erase member
    rw [List.inj_on_of_nodup_map nodup back held same] at member
    exact handles.not_mem_erase member
  have represents := removed.add free gone
    (update_others gone { mgr.cells h.elem with name := newName }) (Function.update_self ..)
  exact (holds.erase removed).insert rfl represents

theorem HoldsNodes.read (holds : HoldsNodes hash mgr t) (r : NodeRead) :
    mgr.read hash r = r.answer t.find t.values t.values.length := by
  have found : (fun name => (mgr.entityAt hash name).map mgr.cells) = t.find := by
    funext name
    rw [← holds.represents.find, entityAt, Option.map_map]
    rfl
  rw [NeuNodeManager.read, found, holds.represents.iter, holds.represents.count]

theorem nodeStep_holds (mgr : NeuNodeManager) (t : Table CStr NodeCell) (call : NodeCall)
    (t' : Table CStr NodeCell) (seen : NodeAnswer) (holds : HoldsNodes hash mgr t)
    (stepped : NodeMap.step t call = some (t', seen)) :
    ∃ mgr', mgr.step hash calloc call = some (mgr', seen) ∧ HoldsNodes hash mgr' t' := by
  cases call with
  | add adapter facts | addStatic adapter facts | addSingle adapter facts display =>
    exact holds.addEntity _ facts t' seen stepped
  | updateName name newName =>
    obtain ⟨nothing, absent⟩ | ⟨h, held, found, rfl, here⟩ := holds.entity_cases name
    · simp only [NodeMap.step, absent] at stepped
      cases stepped
      exact ⟨mgr, by simp [NeuNodeManager.step, neuNodeManagerUpdateName, nothing], holds⟩
    · simp only [NodeMap.step, here] at stepped
      split at stepped
      · next free =>
        cases stepped
        exact ⟨_, by simp [NeuNodeManager.step, neuNodeManagerUpdateName, found],
          holds.renamed held free⟩
      · cases stepped
  | update name pipe =>
    cases stepped
    obtain ⟨nothing, absent⟩ | ⟨h, held, found, rfl, here⟩ := holds.entity_cases name
    · rw [Table.modify_of_absent absent]
      exact ⟨mgr, by simp [NeuNodeManager.step, neuNodeManagerUpdate, entityAt, nothing, absent],
        holds⟩
    · exact ⟨_, by simp [NeuNodeManager.step, neuNodeManagerUpdate, entityAt, found, here],
        holds.written held fun _ => rfl⟩
  | del name =>
    cases stepped
    exact ⟨_, rfl, holds.erase (holds.represents.findDelete name).1⟩
  | adapterChanged name adapter =>
    cases stepped
    obtain ⟨nothing, absent⟩ | ⟨h, held, found, rfl, here⟩ := holds.entity_cases name
    · rw [Table.modify_of_absent absent]
      exact ⟨mgr, by simp [NeuNodeManager.step, NeuNodeManager.adapterChanged, entityAt, nothing],
        holds⟩
    · exact ⟨_, by simp [NeuNodeManager.step, NeuNodeManager.adapterChanged, entityAt, found],
        holds.written held fun _ => rfl⟩
  | read r =>
    cases stepped
    exact ⟨mgr, by rw [NeuNodeManager.step, holds.read], holds⟩

theorem nodeRun_holds {calls : List NodeCall} {seen : List NodeAnswer} (cells : ℕ → NodeCell)
    (ran : Run.observe NodeMap.step .empty calls = some (t, seen)) :
    ∃ mgr, Run.observe (NeuNodeManager.step hash calloc) (.create cells) calls =
      some (mgr, seen) ∧ HoldsNodes hash mgr t := by
  apply Run.same_observations nodeStep_holds _ ran
  exact ⟨holdsPairs_empty, fun name c found => nomatch found⟩

/-- Over whole runs the node manager answers as a finite map of nodes in the order of their
addition, where a renamed node comes last, and every entity is found under its own name. -/
theorem nodeManager_refines_map (hash : CStr → ℕ) (calloc : Calloc) (cells : ℕ → NodeCell)
    (calls : List NodeCall) (t : Table CStr NodeCell) (seen : List NodeAnswer)
    (ran : Run.observe NodeMap.step .empty calls = some (t, seen)) :
    ∃ mgr, Run.observe (NeuNodeManager.step hash calloc) (.create cells) calls =
        some (mgr, seen) ∧
      (∀ r, mgr.read hash r = r.answer t.find t.values t.values.length) ∧
      hashFsckCounts mgr.nodes = true ∧
      ∀ name addr, mgr.entityAt hash name = some addr → (mgr.cells addr).name = name := by
  obtain ⟨mgr, observed, holds⟩ := nodeRun_holds cells ran
  refine ⟨mgr, observed, holds.read, holds.represents.wellFormed.fsck, fun name addr here => ?_⟩
  have found := holds.represents.find name
  obtain ⟨h, led, rfl⟩ := Option.map_eq_some_iff.1 here
  rw [led, Option.map_some] at found
  exact holds.named name _ found.symm

end

def callocAbove : Calloc := fun held =>
  ⟨held.foldr max 0 + 1, by
    have bound : ∀ a ∈ held, a ≤ held.foldr max 0 := by
      induction held with
      | nil => exact fun a member => by cases member
      | cons b rest ih =>
        intro a member
        obtain rfl | inside := List.mem_cons.1 member
        · exact Nat.le_max_left ..
        · exact (ih a inside).trans (Nat.le_max_right ..)
    intro member
    exact absurd (bound _ member) (Nat.not_succ_le_self _)⟩

def noFacts : NodeFacts := ⟨0, .empty, 0, 0⟩

theorem nodeManager_refines_map_rename :
    ∃ mgr, Run.observe (NeuNodeManager.step CStr.strlen callocAbove)
      (.create fun _ => .fresh ⟨adapterOf "" .driver, false, false, false⟩ noFacts)
      [.add (adapterOf "KNX" .esvdevicedriver) noFacts, .add (adapterOf "Zig" .esvapp) noFacts,
        .updateName (.lit "KNX") (.lit "Bus"), .update (.lit "Bus") 5, .read .getPipesAll,
        .del (.lit "Zig"), .update (.lit "Zig") 6, .read .size] =
      some (mgr, [.code 0, .code 0, .code 0, .code 0, .pipes [0, 5], .nothing, .code (-1),
        .count 1]) := by
  obtain ⟨mgr, observed, -⟩ := nodeManager_refines_map CStr.strlen callocAbove
    (fun _ => .fresh ⟨adapterOf "" .driver, false, false, false⟩ noFacts)
    [.add (adapterOf "KNX" .esvdevicedriver) noFacts, .add (adapterOf "Zig" .esvapp) noFacts,
      .updateName (.lit "KNX") (.lit "Bus"), .update (.lit "Bus") 5, .read .getPipesAll,
      .del (.lit "Zig"), .update (.lit "Zig") 6, .read .size] _ _ rfl
  exact ⟨mgr, observed⟩

end Cpm
