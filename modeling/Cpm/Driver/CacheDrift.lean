import Mathlib.Algebra.Order.Field.Rat
import Mathlib.Algebra.Order.Ring.Abs
import Cpm.Driver.CacheSame

/-! How far a floating value can move away from the value that was reported last, while no change
is reported. Beside the cache runs the history of one key. -/
namespace Cpm

open Lib Lib.Run

/-- What a reader of changes took last, and the number of updates since. -/
structure Delivery where
  view : View
  updates : Nat

abbrev Delivering := NeuDriverCache × Option Delivery

/-- An entry that is added anew has no report yet. -/
def nextDelivery (ref : TagRef) (delivery : Option Delivery) (op : CacheOp) (seen : Option View) :
    Option Delivery :=
  match op with
  | .update at' _ _ _ _ _ =>
    if at' = ref then delivery.map fun d => { d with updates := d.updates + 1 } else delivery
  | .getChanged at' | .metaGetChanged at' _ =>
    if at' = ref then (seen.map fun view => ⟨view, 0⟩).or delivery else delivery
  | .add at' _ | .del at' => if at' = ref then none else delivery
  | .get _ | .metaGet _ _ => delivery

def deliveringStep (ref : TagRef) (s : Delivering) (op : CacheOp) : Option Delivering :=
  (cacheStep exactBand s.1 op).map fun r => (r.1, nextDelivery ref s.2 op r.2)

def deliveringNew : Delivering := (neuDriverCacheNew, none)

def formatOf : NeuType → Option Ieee
  | .float => some Ieee.binary32
  | .double => some Ieee.binary64
  | _ => none

def Finite (type : NeuType) (p : Payload) : Prop :=
  ∀ f, formatOf type = some f → f.special p.number = false

def BringsFinite (ref : TagRef) : CacheOp → Prop
  | .add at' v | .update at' _ v _ _ _ => at' = ref → Finite v.value.type v.payload
  | _ => True

def deadBand (precision : UInt8) : Rat := (1 / 10) ^ precision.toNat

/-- An unmarked entry with a precision has moved by at most one dead band with each update. -/
def Near (e : Entry) (d : Delivery) : Prop :=
  e.precision ≠ 0 → e.changed = false → e.type = d.view.type ∧
    ∀ f, formatOf e.type = some f →
      |f.value e.payload.number - f.value d.view.payload.number| ≤ d.updates * deadBand e.precision

structure Drifts (ref : TagRef) (s : Delivering) : Prop where
  inv : CacheInv s.1
  finite : ∀ e, mapOf s.1 ref.names = some e → Finite e.type e.payload
  near : ∀ d, s.2 = some d → ∃ e, mapOf s.1 ref.names = some e ∧ Near e d

/-- An update that leaves the flag down found it down, and moved the value by the dead band at
most. -/
theorem compareChanged_near {heap : Heap} {elem : Elem} {v : CallerValue}
    (stored : Stored heap elem)
    (compared : compareChanged exactBand heap elem v.value v.data = some false)
    (precision : elem.value.precision ≠ 0)
    (finite : Finite elem.value.type (entryOf heap elem).payload)
    (finite' : Finite v.value.type v.payload) :
    elem.changed = false ∧ elem.value.type = v.value.type ∧
      ∀ f, formatOf v.value.type = some f →
        |f.value (entryOf heap elem).payload.number - f.value v.payload.number| ≤
          deadBand elem.value.precision := by
  have type : elem.value.type = v.value.type := by
    by_contra other
    rw [compareChanged, if_pos other] at compared
    cases compared
  have down : elem.changed = false := by
    obtain ⟨changed, again, keeps⟩ := compareChanged_keeps exactBand stored v
    cases compared.symm.trans again
    by_contra up
    exact absurd (keeps (by simpa using up) fun repeats => precision repeats.2.1) (by decide)
  have within (f : Ieee) {a b : Nat} {threshold : Rat} (first : f.special a = false)
      (second : f.special b = false) (calm : f.differMore threshold a b = false) :
      |f.value a - f.value b| ≤ threshold := by
    simpa [Ieee.differMore, Ieee.isNan, first, second] using calm
  refine ⟨down, type, fun f format => ?_⟩
  have first := finite f (type ▸ format)
  have second := finite' f format
  rw [compareChanged, if_neg (not_not.2 type)] at compared
  rw [entryOf, type] at first ⊢
  cases is : v.value.type with
  | float | double =>
    simp only [is, if_neg precision, down, Bool.false_or, Option.some.injEq] at compared
    simp only [is, formatOf, Option.some.injEq] at format
    subst format
    rw [CallerValue.payload, is] at second ⊢
    rw [is] at first
    exact within _ first second compared
  | _ =>
    rw [is] at format
    cases format

/-- The band of one update is added to those of the updates before it. -/
theorem near_update {e : Entry} {d : Delivery} {v : CallerValue} {timestamp : Int} {metas : Metas}
    {changed : Bool} (near : Near e d)
    (moved : e.precision ≠ 0 → changed = false → e.changed = false ∧ e.type = v.value.type ∧
      ∀ f, formatOf v.value.type = some f →
        |f.value e.payload.number - f.value v.payload.number| ≤ deadBand e.precision) :
    Near ⟨v.value.type, v.payload, e.precision, timestamp, metas, changed⟩
      { d with updates := d.updates + 1 } := by
  intro precision down
  obtain ⟨down, type, band⟩ := moved precision down
  obtain ⟨same, sum⟩ := near precision down
  refine ⟨type.symm.trans same, fun f format => ?_⟩
  have before := sum f (type ▸ format)
  have step := band f format
  rw [abs_sub_comm] at step
  calc |f.value v.payload.number - f.value d.view.payload.number|
      ≤ |f.value v.payload.number - f.value e.payload.number| +
          |f.value e.payload.number - f.value d.view.payload.number| := abs_sub_le _ _ _
    _ ≤ deadBand e.precision + d.updates * deadBand e.precision := add_le_add step before
    _ = (d.updates + 1 : Nat) * deadBand e.precision := by push_cast; ring

theorem takes_drifts {ref : TagRef} {s : Delivering} {cache' : NeuDriverCache} {seen : Option View}
    {view : Entry → View} (viewed : ∀ e, (view e).type = e.type ∧ (view e).payload = e.payload)
    (drifts : Drifts ref s) (inv : CacheInv cache')
    (takes : TakesChanged (mapOf s.1) ref.names view (mapOf cache') seen) :
    Drifts ref (cache', (seen.map fun view => ⟨view, 0⟩).or s.2) := by
  unfold TakesChanged at takes
  split at takes
  · obtain ⟨rfl, same⟩ := takes
    exact ⟨inv, same ▸ drifts.finite, same ▸ drifts.near⟩
  · next e marked =>
    obtain ⟨rfl, same⟩ := takes
    have found := (Option.filter_eq_some_iff.1 marked).1
    have stored : mapOf cache' ref.names = some e.reported := by rw [same, Function.update_self]
    refine ⟨inv, fun e' here => ?_, fun d taken => ?_⟩
    · cases stored.symm.trans here
      exact drifts.finite e found
    · cases taken
      refine ⟨e.reported, stored, fun _ _ => ⟨(viewed e).1.symm, fun f _ => ?_⟩⟩
      simp [(viewed e).2, Entry.reported]

theorem drifts_update {ref : TagRef} {s : Delivering} {cache' : NeuDriverCache} {timestamp : Int}
    {v : CallerValue} {metas : { l : List NeuTagMeta // l.length ≤ NEU_TAG_META_SIZE }}
    {change : Bool} {fresh : Nat} {seen : Option View}
    (drifts : Drifts ref s) (inv : CacheInv cache') (finite : Finite v.value.type v.payload)
    (effect : Effect exactBand s.1 (.update ref timestamp v metas change fresh) (mapOf cache') seen) :
    Drifts ref (cache', s.2.map fun d => { d with updates := d.updates + 1 }) := by
  have mapped := effect.2
  cases found : s.1.table.find (keyOf ref.group ref.tag) with
  | none =>
    rw [found] at mapped
    have empty : mapOf s.1 ref.names = none := mapOf_ref found
    have undelivered : s.2 = none := by
      by_contra some
      obtain ⟨d, delivered⟩ := Option.ne_none_iff_exists'.1 some
      obtain ⟨e, here, _⟩ := drifts.near d delivered
      rw [empty] at here
      cases here
    rw [undelivered]
    exact ⟨inv, mapped ▸ drifts.finite, fun d delivered => by cases delivered⟩
  | some elem =>
    simp only [found] at mapped
    obtain ⟨changed, compared, mapped⟩ := mapped
    have here : mapOf s.1 ref.names = some (entryOf s.1.heap elem) := mapOf_ref found
    have stored := drifts.inv.stored _ elem found
    have latest := drifts.finite _ here
    refine ⟨inv, fun e now => ?_, fun d delivered => ?_⟩
    · rw [mapped, Function.update_self] at now
      cases now
      exact finite
    · obtain ⟨d, before, rfl⟩ := Option.map_eq_some_iff.1 delivered
      obtain ⟨e, same, near⟩ := drifts.near d before
      cases here.symm.trans same
      refine ⟨⟨v.value.type, v.payload, elem.value.precision, timestamp, metasOf metas.val,
        changed || change⟩, by rw [mapped, Function.update_self],
        near_update near fun precision down => ?_⟩
      simp only [Bool.or_eq_false_iff] at down
      exact compareChanged_near stored (down.1 ▸ compared) precision latest finite

theorem drifts_step {ref : TagRef} (s : Delivering) (op : CacheOp) (drifts : Drifts ref s)
    (allowed : CacheSafe s.1 op ∧ BringsFinite ref op) :
    ∃ s', deliveringStep ref s op = some s' ∧ Drifts ref s' := by
  obtain ⟨safe, finite⟩ := allowed
  obtain ⟨cache', seen, stepped, inv, effect⟩ := cacheStep_done exactBand drifts.inv safe
  refine ⟨(cache', nextDelivery ref s.2 op seen), by simp [deliveringStep, stepped], ?_⟩
  by_cases away : op.ref ≠ ref
  · have frame := effect_frame effect away
    have unchanged : nextDelivery ref s.2 op seen = s.2 := by
      cases op <;> simp_all [nextDelivery, CacheOp.ref]
    rw [unchanged]
    exact ⟨inv, frame ▸ drifts.finite, frame ▸ drifts.near⟩
  obtain rfl : op.ref = ref := not_not.1 away
  cases op with
  | add at' v =>
    refine ⟨inv, fun e found => ?_, fun d delivered => ?_⟩
    · rw [effect.2, CacheOp.ref, Function.update_self] at found
      cases found
      exact finite rfl
    · simp [nextDelivery, CacheOp.ref] at delivered
  | del at' =>
    refine ⟨inv, fun e found => ?_, fun d delivered => ?_⟩
    · rw [effect.2, CacheOp.ref, Function.update_self] at found
      cases found
    · simp [nextDelivery, CacheOp.ref] at delivered
  | get at' | metaGet at' nMeta =>
    have same : mapOf cache' = mapOf s.1 := effect.2
    exact ⟨inv, same ▸ drifts.finite, same ▸ drifts.near⟩
  | getChanged at' =>
    have next : nextDelivery at' s.2 (.getChanged at') seen =
        (seen.map fun view => ⟨view, 0⟩).or s.2 := if_pos rfl
    exact next ▸ takes_drifts (fun _ => ⟨rfl, rfl⟩) drifts inv effect
  | metaGetChanged at' nMeta =>
    have next : nextDelivery at' s.2 (.metaGetChanged at' nMeta) seen =
        (seen.map fun view => ⟨view, 0⟩).or s.2 := if_pos rfl
    exact next ▸ takes_drifts (fun _ => ⟨rfl, rfl⟩) drifts inv effect
  | update at' timestamp v metas change fresh =>
    have next : nextDelivery at' s.2 (.update at' timestamp v metas change fresh) seen =
        s.2.map fun d => { d with updates := d.updates + 1 } := if_pos rfl
    simp only [CacheOp.ref] at drifts ⊢
    rw [next]
    exact drifts_update drifts inv (finite rfl) effect

theorem deliveringNew_drifts (ref : TagRef) : Drifts ref deliveringNew where
  inv := cacheNew_inv
  finite _ found := by cases found
  near _ delivered := by cases delivered

/-- While get_changed returns −1, a floating value is away from the one reported last by at most
one dead band for each update since. -/
theorem drift_bounded (ref : TagRef) (ops : List CacheOp)
    (allowed : Along (deliveringStep ref) (fun s op => CacheSafe s.1 op ∧ BringsFinite ref op)
      deliveringNew ops) :
    ∃ cache delivery, ops.foldlM (deliveringStep ref) deliveringNew = some (cache, delivery) ∧
      ∀ d e f, delivery = some d → mapOf cache ref.names = some e → formatOf e.type = some f →
        e.precision ≠ 0 → Silent exactBand ref cache → e.type = d.view.type ∧
          |f.value e.payload.number - f.value d.view.payload.number| ≤
            d.updates * deadBand e.precision := by
  obtain ⟨⟨cache, delivery⟩, ran, drifts⟩ :=
    ends_of_step drifts_step (deliveringNew_drifts ref) allowed
  refine ⟨cache, delivery, ran, fun d e f delivered found format precision silent => ?_⟩
  obtain ⟨e', here, near⟩ := drifts.near d delivered
  cases found.symm.trans here
  have idle := (silent_iff drifts.inv).1 silent
  have down : e.changed = false := by simpa [found] using idle
  obtain ⟨type, band⟩ := near precision down
  exact ⟨type, band f format⟩

/-- A FLOAT with precision 1 that is added as 0 and set to 1, 1.0625 and 1.125; 1 is reported. -/
def smallSteps : List CacheOp :=
  let float (bits : Nat) := CallerValue.plain .float (.ofU32 bits) float_plain
  let update (timestamp : Int) (bits : Nat) : CacheOp :=
    .update groupTag timestamp (float bits) ⟨[], noMetas_fit⟩ false 0
  [.add groupTag ((float 0).withPrecision 1), update 5 0x3f800000, .getChanged groupTag,
    update 6 0x3f880000, update 7 0x3f900000]

theorem drift_bounded_small : ∃ cache delivery,
    smallSteps.foldlM (deliveringStep groupTag) deliveringNew = some (cache, delivery) ∧
      ∀ d e f, delivery = some d → mapOf cache groupTag.names = some e →
        formatOf e.type = some f → e.precision ≠ 0 → Silent exactBand groupTag cache →
          e.type = d.view.type ∧
            |f.value e.payload.number - f.value d.view.payload.number| ≤
              d.updates * deadBand e.precision := by
  have finite {bits : Nat} (plain : Ieee.binary32.special (payload .float (.ofU32 bits) []).number =
      false) : Finite .float (payload .float (.ofU32 bits) []) := by
    intro f format
    cases format
    exact plain
  exact drift_bounded groupTag smallSteps
    ⟨⟨fun pointer => absurd pointer (by decide), fun _ => finite (by decide +kernel)⟩,
    fun _ _ => ⟨⟨fun _ _ pointer => absurd pointer (by decide), fun _ => finite (by decide +kernel)⟩,
    fun _ _ => ⟨⟨trivial, trivial⟩,
    fun _ _ => ⟨⟨fun _ _ pointer => absurd pointer (by decide), fun _ => finite (by decide +kernel)⟩,
    fun _ _ => ⟨⟨fun _ _ pointer => absurd pointer (by decide), fun _ => finite (by decide +kernel)⟩,
    fun _ _ => trivial⟩⟩⟩⟩⟩

theorem small_steps_add_up : ¬ ∀ cache d e,
    smallSteps.foldlM (deliveringStep groupTag) deliveringNew = some (cache, some d) →
    mapOf cache groupTag.names = some e → Silent exactBand groupTag cache →
      |Ieee.binary32.value e.payload.number - Ieee.binary32.value d.view.payload.number| ≤
        deadBand e.precision := by
  intro all
  have drifted : ((smallSteps.foldlM (deliveringStep groupTag) deliveringNew).bind fun s =>
      s.2.bind fun d => (mapOf s.1 groupTag.names).bind fun e =>
        (cacheStep exactBand s.1 (.getChanged groupTag)).map fun r =>
          (e.payload.number, d.view.payload.number, e.precision, r.2.isSome)) =
      some (0x3f900000, 0x3f800000, 1, false) := by decide +kernel
  obtain ⟨⟨cache, _⟩, ran, drifted⟩ := Option.bind_eq_some_iff.1 drifted
  obtain ⟨d, rfl, drifted⟩ := Option.bind_eq_some_iff.1 drifted
  obtain ⟨e, found, drifted⟩ := Option.bind_eq_some_iff.1 drifted
  obtain ⟨⟨_, seen⟩, last, shown⟩ := Option.map_eq_some_iff.1 drifted
  injection shown with latest rest
  injection rest with reported rest
  injection rest with precision unreported
  have silent : Silent exactBand groupTag cache := by
    cases seen with
    | none => rw [Silent, last, Option.map_some]
    | some view => cases unreported
  have near := all cache d e ran found silent
  rw [latest, reported, precision] at near
  revert near
  decide +kernel

end Cpm
