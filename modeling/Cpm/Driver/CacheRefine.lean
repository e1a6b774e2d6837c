import Cpm.Driver.CacheEffect
import Cpm.Lib.Run

/-! Every run of cache operations is a run of the map's own operations. -/
namespace Cpm

open Lib Lib.Run

/-- The map's own operations. An update may raise the flag and never lowers it; it keeps the
precision that add installed. -/
def MapStep (m : TagMap) (op : CacheOp) (m' : TagMap) (seen : Option View) : Prop :=
  match op with
  | .add ref v => seen = none ∧ m' = Function.update m ref.names
      (some ⟨v.value.type, v.payload, v.value.precision, 0, noMetas, false⟩)
  | .update ref timestamp v metas change _ => seen = none ∧
      match m ref.names with
      | none => m' = m
      | some e => ∃ changed, (e.changed = true → changed = true) ∧
          (change = true → changed = true) ∧ m' = Function.update m ref.names
            (some ⟨v.value.type, v.payload, e.precision, timestamp, metasOf metas.val, changed⟩)
  | .get ref => seen = (m ref.names).map (·.view none) ∧ m' = m
  | .metaGet ref _ => seen = (m ref.names).map Entry.viewMeta ∧ m' = m
  | .getChanged ref => TakesChanged m ref.names (·.view none) m' seen
  | .metaGetChanged ref _ => TakesChanged m ref.names Entry.viewMeta m' seen
  | .del ref => seen = none ∧ m' = Function.update m ref.names none

/-- Where the code keeps to the map: an add finds no metas, and no FLOAT or DOUBLE without
precision is repeated over a flag that nobody has asked for. -/
def CacheAllowed (cache : NeuDriverCache) (op : CacheOp) : Prop :=
  CacheSafe cache op ∧
    match op with
    | .add ref _ => ∀ elem, cache.table.find (keyOf ref.group ref.tag) = some elem →
        elem.metas = noMetas
    | .update ref _ v _ change _ =>
      ∀ elem, cache.table.find (keyOf ref.group ref.tag) = some elem →
        ¬ (elem.changed = true ∧ change = false ∧ Repeats elem.value v.value)
    | _ => True

theorem cacheStep_refines (band : DeadBand) {cache : NeuDriverCache} {op : CacheOp}
    (inv : CacheInv cache)
    (allowed : CacheAllowed cache op) :
    ∃ cache' seen, cacheStep band cache op = some (cache', seen) ∧ CacheInv cache' ∧
      MapStep (mapOf cache) op (mapOf cache') seen := by
  obtain ⟨cache', seen, stepped, kept, effect⟩ := cacheStep_done band inv allowed.1
  refine ⟨cache', seen, stepped, kept, ?_⟩
  cases op with
  | add ref v =>
    obtain ⟨unseen, mapped⟩ := effect
    have metas : ((mapOf cache ref.names).map Entry.metas).getD noMetas = noMetas := by
      cases found : cache.table.find (keyOf ref.group ref.tag) with
      | none => rw [mapOf_ref found]; rfl
      | some elem => rw [mapOf_ref found]; exact allowed.2 elem found
    rw [metas] at mapped
    exact ⟨unseen, mapped⟩
  | update ref timestamp v metas change fresh =>
    obtain ⟨unseen, mapped⟩ := effect
    refine ⟨unseen, ?_⟩
    cases found : cache.table.find (keyOf ref.group ref.tag) with
    | none =>
      rw [found] at mapped
      rw [mapOf_ref found]
      exact mapped
    | some elem =>
      simp only [found] at mapped
      obtain ⟨changed, compared, mapped⟩ := mapped
      obtain ⟨_, same, raised⟩ := compareChanged_keeps band (inv.stored _ elem found) v
      cases compared.symm.trans same
      rw [mapOf_ref found]
      refine ⟨changed || change, fun marked => ?_, fun forced => by simp [forced], mapped⟩
      by_cases forced : change = true
      · simp [forced]
      · have fresh : ¬ Repeats elem.value v.value := fun again =>
          allowed.2 elem found ⟨marked, by simpa using forced, again⟩
        simp [raised marked fresh]
  | get ref => exact effect
  | metaGet ref nMeta => exact effect
  | getChanged ref => exact effect
  | metaGetChanged ref nMeta => exact effect
  | del ref => exact effect

def CacheRun (band : DeadBand) (ops : List CacheOp) : Prop :=
  Along (fun cache op => (cacheStep band cache op).map Prod.fst) CacheAllowed neuDriverCacheNew ops

theorem cache_refines_map (band : DeadBand) (ops : List CacheOp) (allowed : CacheRun band ops) :
    ∃ cache seen, observe (cacheStep band) neuDriverCacheNew ops = some (cache, seen) ∧
      Traced MapStep (fun _ => none) ops (mapOf cache) seen := by
  obtain ⟨cache, seen, ran, _, traced⟩ :=
    simulate mapOf (fun _ _ => cacheStep_refines band) cacheNew_inv allowed
  exact ⟨cache, seen, ran, traced⟩

theorem cache_refines_map_int8 : ∃ cache seen,
    observe (cacheStep exactBand) neuDriverCacheNew
      [.add groupTag (.plain .int8 (.ofU32 0) (by decide)),
        .update groupTag 5 (.plain .int8 (.ofU32 7) (by decide)) ⟨[], by decide⟩ false 0,
        .getChanged groupTag, .metaGet groupTag 3, .del groupTag, .get groupTag] =
      some (cache, seen) ∧
    Traced MapStep (fun _ => none)
      [.add groupTag (.plain .int8 (.ofU32 0) (by decide)),
        .update groupTag 5 (.plain .int8 (.ofU32 7) (by decide)) ⟨[], by decide⟩ false 0,
        .getChanged groupTag, .metaGet groupTag 3, .del groupTag, .get groupTag]
      (mapOf cache) seen := by
  have start : CacheAllowed neuDriverCacheNew
      (.add groupTag (.plain .int8 (.ofU32 0) (by decide))) := by
    refine ⟨fun type => ?_, fun _ found => ?_⟩
    · cases type
    · cases found
  have updated (cache : NeuDriverCache) : CacheAllowed cache
      (.update groupTag 5 (.plain .int8 (.ofU32 7) (by decide)) ⟨[], by decide⟩ false 0) := by
    refine ⟨fun _ _ type => ?_, fun _ _ repeats => ?_⟩
    · cases type
    · obtain ⟨_, _, _, _, ⟨type, _⟩ | ⟨type, _⟩⟩ := repeats <;> cases type
  exact cache_refines_map exactBand _ ⟨start, fun _ _ => ⟨updated _, fun _ _ => ⟨⟨trivial, trivial⟩,
    fun _ _ => ⟨⟨trivial, trivial⟩, fun _ _ => ⟨⟨trivial, trivial⟩,
    fun _ _ => ⟨⟨trivial, trivial⟩, fun _ _ => trivial⟩⟩⟩⟩⟩⟩

/-- 1.0 comes twice, first marked as a change: the second update lowers the flag. -/
def floatTwice : List CacheOp :=
  [.add groupTag (.plain .float (.ofU32 0) float_plain),
    .update groupTag 5 (.plain .float (.ofU32 0x3f800000) float_plain) ⟨[], noMetas_fit⟩ true 0,
    .update groupTag 6 (.plain .float (.ofU32 0x3f800000) float_plain) ⟨[], noMetas_fit⟩ false 0,
    .getChanged groupTag]

theorem cache_loses_flag : ¬ ∃ cache seen,
    observe (cacheStep exactBand) neuDriverCacheNew floatTwice = some (cache, seen) ∧
      Traced MapStep (fun _ => none) floatTwice (mapOf cache) seen := by
  rintro ⟨cache, seen, ran, traced⟩
  have silent : (observe (cacheStep exactBand) neuDriverCacheNew floatTwice).map (·.2.map Option.isSome) =
      some [false, false, false, false] := by decide +kernel
  rw [ran] at silent
  unfold floatTwice at traced
  obtain _ | ⟨added, traced⟩ := traced
  obtain _ | ⟨first, traced⟩ := traced
  obtain _ | ⟨second, traced⟩ := traced
  obtain _ | ⟨asked, traced⟩ := traced
  cases traced
  obtain ⟨_, rfl⟩ := added
  simp only [MapStep, Function.update_self] at first
  obtain ⟨_, marked, _, raised, rfl⟩ := first
  simp only [MapStep, Function.update_self] at second
  obtain ⟨_, marked', kept, _, rfl⟩ := second
  have still : marked' = true := kept (raised trivial)
  simp only [MapStep, TakesChanged, Function.update_self, still, Option.filter_some, if_true] at asked
  rw [asked.1] at silent
  simp at silent

end Cpm
