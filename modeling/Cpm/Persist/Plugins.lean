import Cpm.Base.Elements
import Cpm.Lib.BinarySearch
import Cpm.Persist.ReadFile
import Cpm.Persist.Schemas
import Cpm.Persist.TagRows

/-! The list of plugins that is written to a file and read back beside the default plugins. -/
namespace Cpm

open Lib Lib.Decode

def defaultPluginFile : String := "config/default_plugins.json"

def pluginFile : String := "persistence/plugins.json"

inductive NeuPluginKind where
  | static
  | system
  | custom
  deriving DecidableEq

structure NeuRespPluginInfo where
  kind : NeuPluginKind
  library : CStr
  deriving DecidableEq

abbrev Files := String → Option (List Char)

/-- What goes through, and how much of the text is in the file when it has been closed: the result
of fclose is not looked at. -/
structure WriteCalls where
  asprintf : Bool
  fopen : Bool
  fwrite : Bool
  flushed : Nat
  rename : Bool

/-- The text goes to a temporary file first, which then takes the place of the other one. Its length
is an int, and for a negative one fwrite goes on behind the text. -/
def writeFileString (files : Files) (fn : String) (s : CStr) (calls : WriteCalls) :
    Option (Files × Int) :=
  let n := asInt s.strlen
  if !calls.asprintf then some (files, -1)
  else if !calls.fopen then some (files, -1)
  else if n < 0 then none
  else
    let text := (s.chars.take n.toNat).take calls.flushed
    let written := Function.update files (fn ++ ".tmp") (some text)
    if !calls.fwrite then some (written, -1)
    else if !calls.rename then some (written, -1)
    else
      let moved := Function.update written fn (written (fn ++ ".tmp"))
      some (Function.update moved (fn ++ ".tmp") none, 0)

/- Storing. -/

/-- The libraries are put one behind the other into a cleared array. -/
def storePluginsLoop : List NeuRespPluginInfo → List (Option CStr) → Nat → List (Option CStr)
  | [], plugins, _ => plugins
  | plugin :: rest, plugins, index =>
    if plugin.kind = .system then storePluginsLoop rest plugins index
    else storePluginsLoop rest (plugins.set index (some plugin.library)) (index + 1)

/-- There is no JSON for a NULL, and nothing is appended for it. -/
def neuJsonEncodePluginResp (j : Jansson) (casts : CastOps) (nPlugin : Int)
    (plugins : List (Option CStr)) : Json :=
  neuJsonEncodeField j casts (.object [])
    [("plugins", .object (.array ((plugins.take nPlugin.toNat).filterMap fun plugin =>
      plugin.bind (jsonString j))))]

def pluginDocument (j : Jansson) (casts : CastOps) (infos : List NeuRespPluginInfo) : Json :=
  neuJsonEncodePluginResp j casts (asInt infos.length)
    (storePluginsLoop infos (List.replicate infos.length none) 0)

/-- A text that cannot be made is NULL, and its length is asked for. -/
def neuPersisterStorePlugins (j : AnyJansson) (casts : CastOps) (files : Files)
    (infos : List NeuRespPluginInfo) (calls : WriteCalls) : Option (Files × Int) :=
  (j.dumps (pluginDocument j.toJansson casts infos)).bind fun text =>
    writeFileString files pluginFile text calls

/- Loading. -/

def pluginElem : NeuJsonElem := ⟨none, .str, false⟩

def decodePlugin (casts : CastOps) (json : Json) (i : Nat) : Decoded CStr :=
  match neuJsonDecodeArrayByJson casts json "plugins" i [pluginElem] with
  | (_, some e) => .error e
  | ([some (.str name)], none) => .ok name
  | _ => .error .failed

def neuJsonDecodePluginReq (j : AnyJansson) (casts : CastOps) (buf : Option CStr) :
    Decoded (List CStr) :=
  match buf.bind j.loadsAny with
  | none => .error .failed
  | some json =>
    let nPlugin := neuJsonDecodeArraySizeByJson json "plugins"
    if nPlugin ≤ 0 then .error .failed
    else (List.range nPlugin.toNat).mapM (decodePlugin casts json)

/-- The reads of a file, and the memory for it. A file that is not there cannot be opened. -/
structure FileReads where
  calls : FileCalls
  memory : Nat → Char

def readFile (files : Files) (fn : String) (reads : FileReads) : ReadString :=
  match files fn with
  | none => .returned (-1) none
  | some content => readFileString content reads.memory reads.calls

def loadPluginsFile (j : AnyJansson) (casts : CastOps) (files : Files) (fname : String)
    (reads : FileReads) : Option (Option (List CStr)) :=
  match readFile files fname reads with
  | .returned rv out =>
    if rv ≠ 0 then some none
    else match neuJsonDecodePluginReq j casts (out.map CStr.read) with
    | .ok names => some (some names)
    | .error .failed => some none
    | .error .crashed => none
  | _ => none

def utStrCmp (a b : CStr) : Prop := a.chars ≤ b.chars

instance : DecidableRel utStrCmp := fun a b => inferInstanceAs (Decidable (a.chars ≤ b.chars))

/-- A name that is not found is put behind the others. -/
def mergePlugin (plugins : List CStr) (name : CStr) : List CStr :=
  if (bsearch CStr.chars plugins name).isSome then plugins else plugins ++ [name]

/-- The default plugins are sorted only if there are others. -/
def neuPersisterLoadPlugins (j : AnyJansson) (casts : CastOps) (files : Files)
    (reads : String → FileReads) : Option (List CStr) := do
  let defaults ← loadPluginsFile j casts files defaultPluginFile (reads defaultPluginFile)
  let user ← loadPluginsFile j casts files pluginFile (reads pluginFile)
  match user with
  | none => return defaults.getD []
  | some user => return user.foldl mergePlugin ((defaults.getD []).insertionSort utStrCmp)

/- Merging. -/

def mergeName (names : List CStr) (name : CStr) : List CStr :=
  if name ∈ names then names else names ++ [name]

def mergedNames (names further : List CStr) : List CStr := further.foldl mergeName names

def SearchesHit (names further : List CStr) : Prop :=
  ∀ front name back, further = front ++ name :: back → name ∈ names ∨ name ∈ front →
    (bsearch CStr.chars (mergedNames names front) name).isSome = true

theorem bsearch_mem {names : List CStr} {name : CStr}
    (found : (bsearch CStr.chars names name).isSome = true) : name ∈ names := by
  obtain ⟨i, hit⟩ := Option.isSome_iff_exists.mp found
  obtain ⟨other, inside, same⟩ := bsearch_found hit
  exact CStr.ext same ▸ inside

def Appends (step : List CStr → CStr → List CStr) : Prop :=
  ∀ names name, step names name = names ++ [name] ∨ step names name = names ∧ name ∈ names

theorem Appends.mem {step : List CStr → CStr → List CStr} (appends : Appends step)
    (names further : List CStr) (name : CStr) :
    name ∈ further.foldl step names ↔ name ∈ names ∨ name ∈ further := by
  induction further generalizing names with
  | nil => simp
  | cons first further ih =>
    rw [List.foldl_cons, ih, List.mem_cons]
    rcases appends names first with longer | ⟨same, inside⟩
    · rw [longer, List.mem_append, List.mem_singleton, or_assoc]
    · rw [same]
      constructor
      · exact Or.imp_right .inr
      · rintro (there | rfl | later)
        · exact .inl there
        · exact .inl inside
        · exact .inr later

theorem Appends.isPrefix {step : List CStr → CStr → List CStr} (appends : Appends step)
    (names further : List CStr) : names <+: further.foldl step names := by
  induction further generalizing names with
  | nil => exact List.prefix_rfl
  | cons first further ih =>
    refine List.IsPrefix.trans ?_ (ih (step names first))
    rcases appends names first with longer | ⟨same, -⟩
    · rw [longer]
      exact List.prefix_append names [first]
    · rw [same]

theorem mergePlugin_appends : Appends mergePlugin := by
  intro names name
  rw [mergePlugin]
  split
  · rename_i found
    exact .inr ⟨rfl, bsearch_mem found⟩
  · exact .inl rfl

theorem mergeName_appends : Appends mergeName := by
  intro names name
  rw [mergeName]
  split
  · rename_i inside
    exact .inr ⟨rfl, inside⟩
  · exact .inl rfl

theorem split_cons {α : Type} {P : List α → α → Prop} {first : α} {further : List α} :
    (∀ front x back, first :: further = front ++ x :: back → P front x) ↔
      P [] first ∧ ∀ front x back, further = front ++ x :: back → P (first :: front) x := by
  constructor
  · intro all
    exact ⟨all [] first further rfl,
      fun front x back split => all (first :: front) x back (congrArg (first :: ·) split)⟩
  · rintro ⟨here, later⟩ front x back split
    cases front with
    | nil =>
      obtain ⟨rfl, -⟩ := List.cons.inj split
      exact here
    | cons head front =>
      obtain ⟨rfl, rest⟩ := List.cons.inj split
      exact later front x back rest

theorem merge_nodup_iff {names : List CStr} (distinct : names.Nodup) (further : List CStr) :
    (further.foldl mergePlugin names).Nodup ↔ SearchesHit names further := by
  induction further generalizing names with
  | nil => exact iff_of_true distinct fun front name back empty => by simp at empty
  | cons first further ih =>
    rw [List.foldl_cons, SearchesHit, split_cons, mergedNames, List.foldl_nil]
    by_cases inside : first ∈ names
    -- A name that is there but not found is appended, and no later step takes it out again.
    · by_cases found : (bsearch CStr.chars names first).isSome = true
      · have same : mergePlugin names first = names := if_pos found
        rw [same, ih distinct, and_iff_right fun _ => found]
        refine forall_congr' fun front => forall_congr' fun name => forall_congr' fun back =>
          imp_congr_right fun _ => imp_congr ?_ ?_
        · rw [List.mem_cons]
          constructor
          · exact Or.imp_right .inr
          · rintro (there | rfl | earlier)
            · exact .inl there
            · exact .inl inside
            · exact .inr earlier
        · rw [mergedNames, mergedNames, List.foldl_cons, mergeName, if_pos inside]
      · refine iff_of_false (fun nodup => ?_) fun hits => found (hits.1 (.inl inside))
        have twice : mergePlugin names first = names ++ [first] := if_neg found
        rw [twice] at nodup
        have front := nodup.sublist (mergePlugin_appends.isPrefix (names ++ [first]) further).sublist
        exact List.disjoint_of_nodup_append front inside (List.mem_singleton_self first)
    · have absent : ¬ (bsearch CStr.chars names first).isSome = true := fun found =>
        inside (bsearch_mem found)
      have longer : mergePlugin names first = names ++ [first] := if_neg absent
      have distinct' : (names ++ [first]).Nodup := by
        rw [List.nodup_append]
        refine ⟨distinct, List.nodup_singleton first, ?_⟩
        rintro name there _ here rfl
        exact inside (List.mem_singleton.mp here ▸ there)
      have new : first ∈ names ∨ first ∈ [] → (bsearch CStr.chars names first).isSome = true := by
        rintro (there | none)
        · exact absurd there inside
        · cases none
      rw [longer, ih distinct', and_iff_right new]
      refine forall_congr' fun front => forall_congr' fun name => forall_congr' fun back =>
        imp_congr_right fun _ => imp_congr ?_ ?_
      · rw [List.mem_append, List.mem_singleton, List.mem_cons, or_assoc]
      · rw [mergedNames, mergedNames, List.foldl_cons, mergeName, if_neg inside]

theorem hits_of_sorted {names further : List CStr}
    (sorted : (mergedNames names further).Pairwise fun a b => a.chars ≤ b.chars) :
    SearchesHit names further := by
  rintro front name back rfl there
  have kept : mergedNames names front <+: mergedNames names (front ++ name :: back) := by
    rw [mergedNames, mergedNames, List.foldl_append]
    exact mergeName_appends.isPrefix _ _
  have inside : name ∈ mergedNames names front := (mergeName_appends.mem _ _ _).mpr there
  obtain ⟨i, found⟩ := bsearch_sorted (sorted.sublist kept.sublist) inside rfl
  exact Option.isSome_iff_exists.mpr ⟨i, found⟩

/- What is stored. -/

def libraries (infos : List NeuRespPluginInfo) : List CStr :=
  (infos.filter (·.kind ≠ .system)).map (·.library)

theorem libraries_length (infos : List NeuRespPluginInfo) :
    (libraries infos).length ≤ infos.length := by
  rw [libraries, List.length_map]
  exact List.length_filter_le _ _

theorem storePluginsLoop_eq (infos : List NeuRespPluginInfo) (stored : List CStr) (left : Nat)
    (room : (libraries infos).length ≤ left) :
    storePluginsLoop infos (stored.map some ++ List.replicate left none) stored.length =
      (stored ++ libraries infos).map some ++
        List.replicate (left - (libraries infos).length) none := by
  induction infos generalizing stored left with
  | nil => simp [storePluginsLoop, libraries]
  | cons plugin rest ih =>
    by_cases system : plugin.kind = .system
    · have skipped : libraries (plugin :: rest) = libraries rest := by simp [libraries, system]
      rw [skipped] at room ⊢
      rw [storePluginsLoop, if_pos system]
      exact ih stored left room
    · have taken : libraries (plugin :: rest) = plugin.library :: libraries rest := by
        simp [libraries, system]
      rw [taken, List.length_cons] at room ⊢
      obtain ⟨left, rfl⟩ := Nat.exists_eq_add_of_le' room
      have put : (stored.map some ++ List.replicate (left + ((libraries rest).length + 1)) none).set
          stored.length (some plugin.library) = (stored ++ [plugin.library]).map some ++
            List.replicate (left + (libraries rest).length) none := by
        rw [List.set_append_right _ _ (by simp), List.length_map, Nat.sub_self, ← Nat.add_assoc,
          List.replicate_succ, List.set_cons_zero]
        simp
      have further := ih (stored ++ [plugin.library]) (left + (libraries rest).length) (by omega)
      rw [storePluginsLoop, if_neg system, put]
      rw [List.length_append, List.length_singleton] at further
      rw [further, List.append_assoc, List.singleton_append, Nat.add_sub_cancel]
      congr 2
      omega

def namesJson (names : List CStr) : Json := .object [("plugins", .array (names.map .string))]

section
variable {casts : CastOps} {names : List CStr}

theorem pluginDocument_eq {j : Jansson} {infos : List NeuRespPluginInfo}
    (legible : ∀ info ∈ infos, j.utf8 info.library = true) (fits : infos.length < 2 ^ 32) :
    pluginDocument j casts infos =
      namesJson (if infos.length < 2 ^ 31 then libraries infos else []) := by
  have loop := storePluginsLoop_eq infos [] infos.length (libraries_length infos)
  rw [List.map_nil, List.nil_append, List.length_nil, List.nil_append] at loop
  have texts : ((libraries infos).map some).filterMap (fun plugin => plugin.bind (jsonString j)) =
      (libraries infos).map .string := by
    rw [List.filterMap_map, ← List.filterMap_eq_map]
    apply List.filterMap_congr
    intro name inside
    obtain ⟨info, there, rfl⟩ := List.mem_map.mp inside
    have plain := legible info (List.mem_filter.mp there).1
    simp [jsonString, plain]
  have items : ((storePluginsLoop infos (List.replicate infos.length none) 0).take
      (asInt infos.length).toNat).filterMap (fun plugin => plugin.bind (jsonString j)) =
        (if infos.length < 2 ^ 31 then libraries infos else []).map .string := by
    rw [loop]
    split
    · rename_i small
      have whole : ((libraries infos).map some ++
          List.replicate (infos.length - (libraries infos).length) none).length = infos.length := by
        have fewer := libraries_length infos
        simp only [List.length_append, List.length_map, List.length_replicate]
        omega
      rw [asInt_small small, Int.toNat_natCast, List.take_of_length_le (Nat.le_of_eq whole),
        List.filterMap_append, texts]
      simp
    · rename_i large
      have negative : asInt infos.length ≤ 0 := by
        have other := asInt_negative (Nat.le_of_not_lt large) fits
        omega
      rw [Int.toNat_of_nonpos negative, List.take_zero]
      rfl
  rw [pluginDocument, neuJsonEncodePluginResp, items]
  rfl

theorem namesJson_plugins (names : List CStr) :
    jsonObjectGet (some (namesJson names)) "plugins" = some (.array (names.map .string)) := rfl

theorem namesJson_size (few : names.length < 2 ^ 31) :
    neuJsonDecodeArraySizeByJson (namesJson names) "plugins" = names.length := by
  rw [neuJsonDecodeArraySizeByJson, namesJson_plugins]
  dsimp only
  rw [List.length_map]
  exact asInt_small few

theorem decodePlugin_name {i : Nat} (inside : i < names.length) :
    decodePlugin casts (namesJson names) i = .ok names[i] := by
  have item : jsonArrayGet (.array (names.map .string)) i = some (.string names[i]) := by
    rw [jsonArrayGet, if_pos (by omega), Int.toNat_natCast, List.getElem?_map,
      List.getElem?_eq_getElem inside, Option.map_some]
  rw [decodePlugin, neuJsonDecodeArrayByJson, namesJson_plugins, Option.bind_some, item]
  rfl

theorem decode_namesJson {j : AnyJansson} {buf : CStr}
    (loaded : j.loadsAny buf = some (namesJson names)) (few : names.length < 2 ^ 31) :
    neuJsonDecodePluginReq j casts (some buf) =
      if names = [] then .error .failed else .ok names := by
  rw [neuJsonDecodePluginReq, Option.bind_some, loaded]
  dsimp only
  rw [namesJson_size few]
  by_cases empty : names = []
  · rw [if_pos empty, if_pos (by rw [empty]; exact Int.le_refl 0)]
  · have some := List.length_pos_iff.mpr empty
    have each : ∀ i ∈ List.range names.length,
        decodePlugin casts (namesJson names) (id i) = .ok (names.getD i .empty) := by
      intro i inside
      have below := List.mem_range.mp inside
      rw [id, decodePlugin_name below, List.getD_eq_getElem _ _ below]
    have every := mapM_map each
    rw [List.map_id] at every
    rw [if_neg empty, if_neg (by omega), Int.toNat_natCast, every]
    congr 1
    apply List.ext_getElem (by simp)
    intro i _ below
    simp [below]

end

/- Storing, and loading what was stored. -/

/-- Every default plugin and every library once, and nothing else. -/
structure ReturnsPlugins (defaults libs result : List CStr) : Prop where
  once : result.Nodup
  all : ∀ name, name ∈ result ↔ name ∈ defaults ∨ name ∈ libs

/-- The plugins of the default file. One that is no list of plugins has none. -/
def DefaultPlugins (j : AnyJansson) (casts : CastOps) (files : Files) (defaults : List CStr) :
    Prop :=
  match neuJsonDecodePluginReq j casts ((files defaultPluginFile).map CStr.read) with
  | .ok names => defaults = names
  | .error .failed => defaults = []
  | .error .crashed => False

/-- The text is read back as the document, and no part of it as any. -/
structure PrintsDocument (j : AnyJansson) (doc : Json) (text : CStr) : Prop where
  printed : j.dumps doc = some text
  whole : j.loadsAny text = some doc
  part : ∀ n < text.strlen, j.loadsAny (text.cut n) = none

def ReadsWhole (files : Files) (fn : String) (reads : FileReads) : Prop :=
  ∀ content, files fn = some content →
    readFileString content reads.memory reads.calls = .returned 0 (some (content ++ ['\x00']))

/-- The array can be counted and the text written as a whole. -/
structure Reaches (infos : List NeuRespPluginInfo) (text : CStr) (calls : WriteCalls) : Prop where
  counted : infos.length < 2 ^ 31
  measured : text.strlen < 2 ^ 31
  flushed : text.strlen ≤ calls.flushed

/-- No library is missed by the search when it is there already, and none is needed of a list that
does not reach the file. -/
structure PluginsAllowed (defaults : List CStr) (infos : List NeuRespPluginInfo) (text : CStr)
    (calls : WriteCalls) : Prop where
  hits : Reaches infos text calls →
    SearchesHit (defaults.insertionSort utStrCmp) (libraries infos)
  lost : ¬ Reaches infos text calls → ∀ name ∈ libraries infos, name ∈ defaults

theorem read_content (content : List Char) :
    CStr.read (content ++ ['\x00']) = CStr.read content := by
  apply CStr.ext
  change (content ++ ['\x00']).takeWhile _ = content.takeWhile _
  rw [List.takeWhile_append]
  split
  · rename_i plain
    rw [List.takeWhile_cons_of_neg (by decide), List.append_nil]
    exact (List.takeWhile_prefix _).eq_of_length plain |>.symm
  · rfl

theorem loadPluginsFile_eq {j : AnyJansson} {casts : CastOps} {files : Files} {fn : String}
    {reads : FileReads} (read : ReadsWhole files fn reads) :
    loadPluginsFile j casts files fn reads =
      match neuJsonDecodePluginReq j casts ((files fn).map CStr.read) with
      | .ok names => some (some names)
      | .error .failed => some none
      | .error .crashed => none := by
  rw [loadPluginsFile, readFile]
  cases there : files fn with
  | none => rfl
  | some content =>
    dsimp only
    rw [read content there]
    simp only [ne_eq, not_true_eq_false, if_false, Option.map_some, read_content]

section
variable {j : AnyJansson} {casts : CastOps} {files : Files} {reads : String → FileReads}
  {defaults : Option (List CStr)}

theorem load_missing
    (default : loadPluginsFile j casts files defaultPluginFile (reads defaultPluginFile) =
      some defaults)
    (user : loadPluginsFile j casts files pluginFile (reads pluginFile) = some none) :
    neuPersisterLoadPlugins j casts files reads = some (defaults.getD []) := by
  rw [neuPersisterLoadPlugins, default, user]
  rfl

theorem load_merged {names : List CStr}
    (default : loadPluginsFile j casts files defaultPluginFile (reads defaultPluginFile) =
      some defaults)
    (user : loadPluginsFile j casts files pluginFile (reads pluginFile) = some (some names)) :
    neuPersisterLoadPlugins j casts files reads =
      some (names.foldl mergePlugin ((defaults.getD []).insertionSort utStrCmp)) := by
  rw [neuPersisterLoadPlugins, default, user]
  rfl

end

theorem writeFileString_files {files after : Files} {fn : String} {s : CStr} {calls : WriteCalls}
    (success : writeFileString files fn s calls = some (after, 0)) :
    after fn = some (s.cut (min calls.flushed (asInt s.strlen).toNat)).chars ∧
      ∀ other, other ≠ fn → other ≠ fn ++ ".tmp" → after other = files other := by
  have apart : fn ≠ fn ++ ".tmp" := by
    intro same
    have length := congrArg String.length same
    rw [String.length_append] at length
    have four : ".tmp".length = 4 := by decide
    omega
  simp only [writeFileString] at success
  split at success
  · cases success
  split at success
  · cases success
  split at success
  · cases success
  split at success
  · cases success
  split at success
  · cases success
  obtain ⟨rfl, -⟩ := Prod.mk.inj (Option.some.inj success)
  constructor
  · rw [Function.update_of_ne apart, Function.update_self, Function.update_self, List.take_take]
    rfl
  · intro other notFile notTemporary
    rw [Function.update_of_ne notTemporary, Function.update_of_ne notFile,
      Function.update_of_ne notTemporary]

theorem written_iff {infos : List NeuRespPluginInfo} {text : CStr} {calls : WriteCalls} :
    Reaches infos text calls ↔ infos.length < 2 ^ 31 ∧
      text.strlen ≤ min calls.flushed (asInt text.strlen).toNat := by
  have below := asInt_le text.strlen
  have measured := asInt_eq_iff text.strlen
  constructor
  · intro reaches
    have same := measured.mpr reaches.measured
    have flushed := reaches.flushed
    exact ⟨reaches.counted, by omega⟩
  · rintro ⟨counted, whole⟩
    by_cases empty : text.strlen = 0
    · exact ⟨counted, by omega, by omega⟩
    · exact ⟨counted, measured.mp (by omega), by omega⟩

section
variable {j : AnyJansson} {casts : CastOps} {infos : List NeuRespPluginInfo} {text : CStr}
  {calls : WriteCalls}

theorem decode_written (legible : ∀ info ∈ infos, j.utf8 info.library = true)
    (fits : infos.length < 2 ^ 32)
    (document : PrintsDocument j (pluginDocument j.toJansson casts infos) text)
    (reaches : Reaches infos text calls) :
    neuJsonDecodePluginReq j casts
        (some (text.cut (min calls.flushed (asInt text.strlen).toNat))) =
      if libraries infos = [] then .error .failed else .ok (libraries infos) := by
  have loaded := document.whole
  have fewer := libraries_length infos
  have counted := reaches.counted
  rw [pluginDocument_eq legible fits, if_pos counted] at loaded
  rw [CStr.cut_self (written_iff.mp reaches).2, decode_namesJson loaded (by omega)]

theorem decode_lost (legible : ∀ info ∈ infos, j.utf8 info.library = true)
    (fits : infos.length < 2 ^ 32)
    (document : PrintsDocument j (pluginDocument j.toJansson casts infos) text)
    (lost : ¬ Reaches infos text calls) :
    neuJsonDecodePluginReq j casts
      (some (text.cut (min calls.flushed (asInt text.strlen).toNat))) = .error .failed := by
  by_cases whole : text.strlen ≤ min calls.flushed (asInt text.strlen).toNat
  · have uncounted : ¬ infos.length < 2 ^ 31 := fun counted => lost (written_iff.mpr ⟨counted, whole⟩)
    have loaded := document.whole
    rw [pluginDocument_eq legible fits, if_neg uncounted] at loaded
    rw [CStr.cut_self whole, decode_namesJson loaded (Nat.two_pow_pos 31), if_pos rfl]
  · rw [neuJsonDecodePluginReq, Option.bind_some, document.part _ (Nat.lt_of_not_le whole)]

theorem returns_defaults {defaults libs : List CStr} (distinct : defaults.Nodup) :
    ReturnsPlugins defaults libs defaults ↔ ∀ name ∈ libs, name ∈ defaults := by
  constructor
  · exact fun returns name inside => (returns.all name).mpr (.inr inside)
  · exact fun known => ⟨distinct, fun name => ⟨.inl, fun there => there.elim id (known name)⟩⟩

theorem returns_merged {defaults libs : List CStr} (distinct : defaults.Nodup) :
    ReturnsPlugins defaults libs (libs.foldl mergePlugin (defaults.insertionSort utStrCmp)) ↔
      SearchesHit (defaults.insertionSort utStrCmp) libs := by
  have sorted := (List.perm_insertionSort utStrCmp defaults).nodup_iff.mpr distinct
  rw [← merge_nodup_iff sorted]
  constructor
  · exact ReturnsPlugins.once
  · intro once
    refine ⟨once, fun name => ?_⟩
    rw [mergePlugin_appends.mem, List.mem_insertionSort]

end

/-- The length of a `UT_array` is an `unsigned`. -/
theorem plugins_persisted (j : AnyJansson) (casts : CastOps) {files after : Files}
    {infos : List NeuRespPluginInfo} {calls : WriteCalls} {reads : String → FileReads}
    {defaults : List CStr} {text : CStr} (default : DefaultPlugins j casts files defaults)
    (distinct : defaults.Nodup) (legible : ∀ info ∈ infos, j.utf8 info.library = true)
    (fits : infos.length < 2 ^ 32)
    (document : PrintsDocument j (pluginDocument j.toJansson casts infos) text)
    (stored : neuPersisterStorePlugins j casts files infos calls = some (after, 0))
    (readDefault : ReadsWhole after defaultPluginFile (reads defaultPluginFile))
    (readUser : ReadsWhole after pluginFile (reads pluginFile)) :
    (∃ result, neuPersisterLoadPlugins j casts after reads = some result ∧
        ReturnsPlugins defaults (libraries infos) result) ↔
      PluginsAllowed defaults infos text calls := by
  rw [neuPersisterStorePlugins, document.printed, Option.bind_some] at stored
  obtain ⟨user, others⟩ := writeFileString_files stored
  have same := others defaultPluginFile (by decide) (by decide)
  have first : ∃ loaded, loadPluginsFile j casts after defaultPluginFile (reads defaultPluginFile) =
      some loaded ∧ loaded.getD [] = defaults := by
    rw [loadPluginsFile_eq readDefault, same]
    rw [DefaultPlugins] at default
    split at default
    · rename_i names _
      exact ⟨some names, rfl, default.symm⟩
    · exact ⟨none, rfl, default.symm⟩
    · exact default.elim
  obtain ⟨loaded, given, rfl⟩ := first
  have second := @loadPluginsFile_eq j casts _ _ _ readUser
  rw [user, Option.map_some, CStr.read_chars] at second
  by_cases reaches : Reaches infos text calls
  · have allowed : PluginsAllowed (loaded.getD []) infos text calls ↔
        SearchesHit ((loaded.getD []).insertionSort utStrCmp) (libraries infos) :=
      ⟨fun allowed => allowed.hits reaches,
        fun hits => ⟨fun _ => hits, fun lost => absurd reaches lost⟩⟩
    rw [decode_written legible fits document reaches] at second
    rw [allowed]
    by_cases empty : libraries infos = []
    · rw [if_pos empty] at second
      rw [load_missing given second, empty]
      simp only [Option.some.injEq, exists_eq_left']
      rw [returns_defaults distinct]
      exact iff_of_true (List.forall_mem_nil _) fun front name back other => by simp at other
    · rw [if_neg empty] at second
      rw [load_merged given second]
      simp only [Option.some.injEq, exists_eq_left']
      exact returns_merged distinct
  · have allowed : PluginsAllowed (loaded.getD []) infos text calls ↔
        ∀ name ∈ libraries infos, name ∈ loaded.getD [] :=
      ⟨fun allowed => allowed.lost reaches,
        fun known => ⟨fun other => absurd other reaches, fun _ => known⟩⟩
    rw [decode_lost legible fits document reaches] at second
    rw [load_missing given second, allowed]
    simp only [Option.some.injEq, exists_eq_left']
    exact returns_defaults distinct

def namesText (names : List CStr) : CStr :=
  .read ("\x7b\"plugins\": [".toList ++
    ((names.map fun name => '\x22' :: name.chars ++ ['\x22']).intersperse [',', ' ']).flatten ++
      "]\x7d".toList)

def namesJansson (known : List (List CStr)) : AnyJansson where
  utf8 text := text.chars.all fun c => c.toNat < 128
  loads _ := none
  dumps
    | .object [(_, .array items)] =>
      some (namesText (items.filterMap fun item => jsonStringValue (some item)))
    | _ => none
  dumpsAny _ := none
  loadsAny text := (known.find? fun names => namesText names = text).map namesJson

def modbusFiles : Files := fun fn =>
  if fn = defaultPluginFile then some (namesText [.lit "m"]).chars else none

def wholeReads : String → FileReads := fun _ => ⟨⟨true, true, true, 0, [.gives 100]⟩, fun _ => 'x'⟩

def wholeWrite : WriteCalls := ⟨true, true, true, 100, true⟩

theorem modbusFiles_default (known : List (List CStr)) :
    DefaultPlugins (namesJansson ([.lit "m"] :: known)) noCasts modbusFiles [.lit "m"] := by
  have first : (namesJansson ([.lit "m"] :: known)).loadsAny (namesText [.lit "m"]) =
      some (namesJson [.lit "m"]) := by
    simp [namesJansson]
  have decoded := @decode_namesJson noCasts _ _ _ first (by decide)
  have there : modbusFiles defaultPluginFile = some (namesText [.lit "m"]).chars := if_pos rfl
  rw [DefaultPlugins, there, Option.map_some, CStr.read_chars, decoded, if_neg (List.cons_ne_nil _ _)]

theorem plugins_persisted_sorted :
    let j := namesJansson [[.lit "m"], [.lit "n"]]
    let infos : List NeuRespPluginInfo := [⟨.system, .lit "mqtt"⟩, ⟨.custom, .lit "n"⟩]
    ∃ after, neuPersisterStorePlugins j noCasts modbusFiles infos wholeWrite = some (after, 0) ∧
      ∃ result, neuPersisterLoadPlugins j noCasts after wholeReads = some result ∧
        ReturnsPlugins [.lit "m"] [.lit "n"] result := by
  intro j infos
  have document : PrintsDocument j (pluginDocument j.toJansson noCasts infos)
      (namesText [.lit "n"]) := by
    have known : pluginDocument j.toJansson noCasts infos = namesJson [.lit "n"] :=
      pluginDocument_eq (by decide) (by decide)
    have parts : ∀ n < (namesText [.lit "n"]).strlen,
        [[CStr.lit "m"], [.lit "n"]].find? (fun names =>
          namesText names = (namesText [.lit "n"]).cut n) = none := by decide +kernel
    rw [known]
    refine ⟨rfl, ?_, fun n part => Option.map_eq_none_iff.mpr (parts n part)⟩
    have other : namesText [.lit "m"] ≠ namesText [.lit "n"] := by decide +kernel
    simp [j, namesJansson, other]
  have success : (neuPersisterStorePlugins j noCasts modbusFiles infos wholeWrite).map
      (fun stored => (stored.2, stored.1 pluginFile, stored.1 defaultPluginFile)) =
        some (0, some (namesText [.lit "n"]).chars, some (namesText [.lit "m"]).chars) := by
    decide +kernel
  obtain ⟨⟨after, rv⟩, stored, same⟩ := Option.map_eq_some_iff.mp success
  obtain ⟨rfl, user, default⟩ : rv = 0 ∧ after pluginFile = some (namesText [.lit "n"]).chars ∧
      after defaultPluginFile = some (namesText [.lit "m"]).chars := by
    simpa using same
  refine ⟨after, stored, (plugins_persisted j noCasts (modbusFiles_default _) (by decide) (by decide)
    (by decide) document stored ?_ ?_).mpr ?_⟩
  · intro content there
    obtain rfl := Option.some.inj (default.symm.trans there)
    decide +kernel
  · intro content there
    obtain rfl := Option.some.inj (user.symm.trans there)
    decide +kernel
  · exact ⟨fun _ => hits_of_sorted (by decide +kernel),
      fun lost => absurd ⟨by decide, by decide +kernel, by decide +kernel⟩ lost⟩

theorem plugins_persisted_twice :
    let j := namesJansson [[.lit "m"], [.lit "a", .lit "m"]]
    let infos : List NeuRespPluginInfo := [⟨.static, .lit "a"⟩, ⟨.static, .lit "m"⟩]
    (DefaultPlugins j noCasts modbusFiles [.lit "m"] ∧
      (∀ info ∈ infos, j.utf8 info.library = true)) ∧
    ((neuPersisterStorePlugins j noCasts modbusFiles infos wholeWrite).map fun stored =>
        (stored.2, neuPersisterLoadPlugins j noCasts stored.1 wholeReads)) =
      some (0, some [.lit "m", .lit "a", .lit "m"]) ∧
    ¬ ReturnsPlugins [.lit "m"] (libraries infos) [.lit "m", .lit "a", .lit "m"] ∧
    ((neuPersisterStorePlugins j noCasts modbusFiles infos { wholeWrite with flushed := 9 }).map
        fun stored => (stored.2, neuPersisterLoadPlugins j noCasts stored.1 wholeReads)) =
      some (0, some [.lit "m"]) := by
  intro j infos
  exact ⟨⟨modbusFiles_default _, by decide⟩, by decide +kernel,
    fun returns => absurd returns.once (by decide), by decide +kernel⟩

end Cpm
