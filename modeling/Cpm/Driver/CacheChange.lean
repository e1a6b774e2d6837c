import Cpm.Driver.CacheEffect
import Cpm.Lib.Run

/-! Changes that wait for a reader. Beside the cache runs the history of one key: what was stored
last, and whether a change has not been reported since. -/
namespace Cpm

open Lib Lib.Run

variable {band : DeadBand}

structure Watch where
  latest : Option CallerValue
  due : Bool

def CallerValue.withPrecision (v : CallerValue) (precision : UInt8) : CallerValue :=
  { v with value := { v.value with precision } }

/-- Another type or another value; floating numbers with a precision do not count. -/
def differs (old v : CallerValue) : Bool :=
  old.value.type ≠ v.value.type ||
    match v.value.type with
    | .float => old.value.precision = 0 &&
        Ieee.binary32.ne old.value.value.f32 v.value.value.f32
    | .double => old.value.precision = 0 &&
        Ieee.binary64.ne old.value.value.d64 v.value.value.d64
    | _ => old.payload ≠ v.payload

def Watch.next (ref : TagRef) (w : Watch) (op : CacheOp) (seen : Option View) : Watch :=
  match op with
  | .add at' v => if at' = ref then ⟨some v, false⟩ else w
  | .update at' _ v _ change _ =>
    if at' = ref then
      match w.latest with
      | none => w
      | some old =>
        ⟨some (v.withPrecision old.value.precision), w.due || change || differs old v⟩
    else w
  | .getChanged at' | .metaGetChanged at' _ =>
    if at' = ref then { w with due := w.due && seen.isNone } else w
  | .del at' => if at' = ref then ⟨none, false⟩ else w
  | .get _ | .metaGet _ _ => w

abbrev Watched := NeuDriverCache × Watch

def watchedStep (band : DeadBand) (ref : TagRef) (s : Watched) (op : CacheOp) : Option Watched :=
  (cacheStep band s.1 op).map fun r => (r.1, s.2.next ref op r.2)

/-- The bytes behind a pointer come again under another inner type. -/
def Retyped (old v : CallerValue) : Prop :=
  old.value.type = .ptr ∧ v.value.type = .ptr ∧
    old.value.value.ptrLength = v.value.value.ptrLength ∧ old.data = v.data ∧
    old.value.value.ptrType ≠ v.value.value.ptrType

/-- The two updates without a change flag that lose a change: a repeated FLOAT or DOUBLE while
one is due, and pointer values that differ in their inner type only while nothing is marked. -/
def Unmissed (ref : TagRef) (s : Watched) (op : CacheOp) : Prop :=
  CacheSafe s.1 op ∧
    match op with
    | .update at' _ v _ change _ => at' = ref → change = false →
        ∀ old, s.2.latest = some old →
          ¬ (s.2.due = true ∧ Repeats old.value v.value) ∧
            ¬ ((mapOf s.1 ref.names).any Entry.changed = false ∧ Retyped old v)
    | _ => True

/-- The invariant: the map has the latest value, and what is due is marked. -/
structure Tracks (ref : TagRef) (s : Watched) : Prop where
  inv : CacheInv s.1
  latest : (mapOf s.1 ref.names).map (fun e => (e.type, e.payload, e.precision)) =
    s.2.latest.map fun v => (v.value.type, v.payload, v.value.precision)
  marked : s.2.due = true → ∃ e, mapOf s.1 ref.names = some e ∧ e.changed = true

theorem front_injective {u u' : ValueU} {n : Nat}
    (same : (u.window 0 n).toList = (u'.window 0 n).toList) : u.window 0 n = u'.window 0 n :=
  List.ofFn_injective same

theorem f32_of_payload {u u' : ValueU} {data data' : List UInt8}
    (same : payload .float u data = payload .float u' data') : u.f32 = u'.f32 := by
  have front : (u.window 0 4).toList = (u'.window 0 4).toList := congrArg Payload.front same
  have bytes : u.window 0 4 = u'.window 0 4 := front_injective front
  rw [ValueU.f32, ValueU.f32, bytes]

theorem d64_of_payload {u u' : ValueU} {data data' : List UInt8}
    (same : payload .double u data = payload .double u' data') : u.d64 = u'.d64 := by
  have front : (u.window 0 8).toList = (u'.window 0 8).toList := congrArg Payload.front same
  have bytes : u.window 0 8 = u'.window 0 8 := front_injective front
  rw [ValueU.d64, ValueU.d64, bytes]

structure Means (heap : Heap) (elem : Elem) (old : CallerValue) : Prop where
  type : elem.value.type = old.value.type
  payload : (entryOf heap elem).payload = old.payload
  precision : elem.value.precision = old.value.precision

theorem means_latest {cache : NeuDriverCache} {ref : TagRef} {elem : Elem}
    {latest : Option CallerValue} (found : cache.table.find (keyOf ref.group ref.tag) = some elem)
    (same : (mapOf cache ref.names).map (fun e => (e.type, e.payload, e.precision)) =
      latest.map fun v => (v.value.type, v.payload, v.value.precision)) :
    ∃ old, latest = some old ∧ Means cache.heap elem old := by
  rw [mapOf_ref found, Option.map_some, Option.map_some] at same
  obtain ⟨old, stored, equal⟩ := Option.map_eq_some_iff.1 same.symm
  injection equal with type rest
  injection rest with content precision
  exact ⟨old, stored, type.symm, content.symm, precision.symm⟩

theorem Means.repeats {heap : Heap} {elem : Elem} {old v : CallerValue}
    (means : Means heap elem old) (again : Repeats elem.value v.value) :
    Repeats old.value v.value := by
  obtain ⟨type, precision, equal⟩ := again
  have same := means.payload
  rw [entryOf, CallerValue.payload, ← means.type, type] at same
  refine ⟨means.type ▸ type, means.precision ▸ precision, ?_⟩
  obtain ⟨float, equal⟩ | ⟨double, equal⟩ := equal
  · rw [float] at same
    rw [f32_of_payload same] at equal
    exact .inl ⟨float, equal⟩
  · rw [double] at same
    rw [d64_of_payload same] at equal
    exact .inr ⟨double, equal⟩

section
variable {heap : Heap} {elem : Elem} {old v : CallerValue} {changed : Bool}

theorem Means.scalar (means : Means heap elem old) (type : elem.value.type = v.value.type)
    (plain : v.value.type ≠ .ptr) (distinct : old.payload ≠ v.payload) :
    elem.value.value ≠ v.value.value := by
  intro same
  have content := means.payload
  rw [entryOf, CallerValue.payload, ← means.type, type] at content
  apply distinct
  rw [CallerValue.payload, ← means.type, type, ← content, same, CallerValue.payload]
  simp [Cpm.payload, plain]

theorem ptr_of_payload {u u' : ValueU} {data data' : List UInt8}
    (same : payload .ptr u data = payload .ptr u' data') :
    u.ptrLength = u'.ptrLength ∧ data = data' := by
  have front : (u.window 0 6).toList = (u'.window 0 6).toList := congrArg Payload.front same
  have inner := congrArg (fun b : Block 6 => (b.window 4 2).leValue) (front_injective front)
  simp only [Block.window_window _ (by decide : 4 + 2 ≤ 6)] at inner
  exact ⟨inner, congrArg Payload.data same⟩

/-- Pointer values of one length with the same bytes differ in their inner type. -/
theorem retyped_of_differ (distinct : old.payload ≠ v.payload) (oldIs : old.value.type = .ptr)
    (is : v.value.type = .ptr) (length : old.value.value.ptrLength = v.value.value.ptrLength)
    (data : old.data = v.data) : Retyped old v := by
  refine ⟨oldIs, is, length, data, fun typed => distinct ?_⟩
  have whole : old.value.value.window 0 6 = v.value.value.window 0 6 :=
    Block.window_join typed (Block.leValue_injective length)
  rw [CallerValue.payload, CallerValue.payload, oldIs, is, data]
  simp only [payload, NeuType.width, whole, reduceCtorEq, if_false]

theorem ptr_marks (stored : Stored heap elem) (means : Means heap elem old)
    (type : elem.value.type = v.value.type) (is : v.value.type = .ptr)
    (compared : compareChanged band heap elem v.value v.data = some changed)
    (distinct : old.payload ≠ v.payload) (kept : elem.changed = false → ¬ Retyped old v) :
    changed = true := by
  have oldIs : old.value.type = .ptr := means.type ▸ type.trans is
  obtain ⟨before, read⟩ := stored.readable (type.trans is)
  have content := means.payload
  rw [entryOf, CallerValue.payload, type, is, oldIs, read] at content
  obtain ⟨sized, bytes⟩ := ptr_of_payload content
  rw [compareChanged, if_neg (not_not.2 type)] at compared
  simp only [is] at compared
  by_cases lengths : elem.value.value.ptrLength ≠ v.value.value.ptrLength
  · rw [if_pos lengths] at compared
    exact (Option.some.inj compared).symm
  have length : elem.value.value.ptrLength = v.value.value.ptrLength := not_not.1 lengths
  rw [if_neg lengths, ← length, read, length, v.readCaller_data is] at compared
  cases compared
  by_cases again : before = v.data
  · have retyped : Retyped old v := by
      apply retyped_of_differ distinct oldIs is (sized.symm.trans length)
      exact bytes.symm.trans again
    cases marked : elem.changed with
    | true => rfl
    | false => exact absurd retyped (kept marked)
  · simp [again]

theorem bytes_marks (type : elem.value.type = v.value.type) (is : v.value.type = .bytes)
    (compared : compareChanged band heap elem v.value v.data = some changed) : changed = true := by
  rw [compareChanged, if_neg (not_not.2 type)] at compared
  simp only [is] at compared
  split at compared
  · exact (Option.some.inj compared).symm
  · split at compared
    · exact (Option.some.inj compared).symm
    · cases compared

/-- A change that counts raises the flag, a new inner type alone apart. -/
theorem compareChanged_marks (stored : Stored heap elem) (means : Means heap elem old)
    (compared : compareChanged band heap elem v.value v.data = some changed)
    (differ : differs old v = true) (kept : elem.changed = false → ¬ Retyped old v) :
    changed = true := by
  by_cases other : elem.value.type ≠ v.value.type
  · rw [compareChanged, if_pos other] at compared
    exact (Option.some.inj compared).symm
  have type : elem.value.type = v.value.type := not_not.1 other
  have same : old.value.type = v.value.type := means.type.symm.trans type
  have content := means.payload
  rw [entryOf, CallerValue.payload, ← means.type, type] at content
  simp only [differs, same, ne_eq, not_true_eq_false, decide_false, Bool.false_or] at differ
  have unfolded := compared
  rw [compareChanged, if_neg other] at unfolded
  cases is : v.value.type with
  | bytes => exact bytes_marks type is compared
  | ptr =>
    simp only [is, decide_eq_true_eq] at differ
    exact ptr_marks stored means type is compared differ kept
  | float =>
    simp only [is, Bool.and_eq_true, decide_eq_true_eq] at differ content unfolded
    rw [if_pos (means.precision.trans differ.1), f32_of_payload content] at unfolded
    exact (Option.some.inj unfolded).symm.trans differ.2
  | double =>
    simp only [is, Bool.and_eq_true, decide_eq_true_eq] at differ content unfolded
    rw [if_pos (means.precision.trans differ.1), d64_of_payload content] at unfolded
    exact (Option.some.inj unfolded).symm.trans differ.2
  | error =>
    simp only [is] at unfolded
    exact (Option.some.inj unfolded).symm
  | unlisted =>
    simp [CallerValue.payload, same, is] at differ
  | _ =>
    simp only [is, decide_eq_true_eq] at differ unfolded
    rw [← Option.some.inj unfolded]
    simp [means.scalar type (by rw [is]; decide) differ]

end

theorem next_away {ref : TagRef} {w : Watch} {op : CacheOp} {seen : Option View}
    (away : op.ref ≠ ref) : w.next ref op seen = w := by
  cases op <;> simp_all [Watch.next, CacheOp.ref]

/-- A reader of changes that reports has nothing due any more; one that does not found nothing
marked. -/
theorem takes_tracks {ref : TagRef} {s : Watched} {cache' : NeuDriverCache} {seen : Option View}
    {view : Entry → View} (tracks : Tracks ref s) (kept : CacheInv cache')
    (takes : TakesChanged (mapOf s.1) ref.names view (mapOf cache') seen) :
    Tracks ref (cache', { s.2 with due := s.2.due && seen.isNone }) := by
  unfold TakesChanged at takes
  split at takes
  · obtain ⟨rfl, same⟩ := takes
    refine ⟨kept, ?_, fun due => ?_⟩
    · rw [same]
      exact tracks.latest
    · rw [same]
      exact tracks.marked (by simpa using due)
  · next e marked =>
    obtain ⟨rfl, same⟩ := takes
    have found := (Option.filter_eq_some_iff.1 marked).1
    refine ⟨kept, ?_, fun due => by simp at due⟩
    rw [same, Function.update_self, ← tracks.latest, found]
    rfl

theorem update_tracks {ref : TagRef} {s : Watched} {cache' : NeuDriverCache} {timestamp : Int}
    {v : CallerValue} {metas : { l : List NeuTagMeta // l.length ≤ NEU_TAG_META_SIZE }}
    {change : Bool} {fresh : Nat} {seen : Option View} (tracks : Tracks ref s)
    (allowed : Unmissed ref s (.update ref timestamp v metas change fresh))
    (kept : CacheInv cache')
    (effect : Effect band s.1 (.update ref timestamp v metas change fresh) (mapOf cache') seen) :
    Tracks ref (cache', s.2.next ref (.update ref timestamp v metas change fresh) seen) := by
  have latest := tracks.latest
  obtain ⟨_, mapped⟩ := effect
  cases found : s.1.table.find (keyOf ref.group ref.tag) with
  | none =>
    rw [found] at mapped
    rw [mapOf_ref found, Option.map_none, Option.map_none] at latest
    have empty : s.2.latest = none := Option.map_eq_none_iff.1 latest.symm
    have unchanged : s.2.next ref (.update ref timestamp v metas change fresh) seen = s.2 := by
      simp [Watch.next, empty]
    rw [unchanged]
    exact ⟨kept, mapped ▸ tracks.latest, mapped ▸ tracks.marked⟩
  | some elem =>
    simp only [found] at mapped
    obtain ⟨changed, compared, mapped⟩ := mapped
    obtain ⟨old, stored, means⟩ := means_latest found latest
    have readable := tracks.inv.stored _ elem found
    have next : s.2.next ref (.update ref timestamp v metas change fresh) seen =
        ⟨some (v.withPrecision old.value.precision), s.2.due || change || differs old v⟩ := by
      simp [Watch.next, stored]
    rw [next]
    refine ⟨kept, ?_, fun due => ?_⟩
    · rw [mapped, Function.update_self, ← means.precision]
      rfl
    · rw [mapped]
      refine ⟨_, Function.update_self .., ?_⟩
      by_cases forced : change = true
      · simp [forced]
      · have calm := allowed.2 rfl (by simpa using forced) old stored
        cases pending : s.2.due with
        | true =>
          obtain ⟨e, here, marked⟩ := tracks.marked pending
          rw [mapOf_ref found] at here
          cases here
          obtain ⟨_, again, raised⟩ := compareChanged_keeps band readable v
          cases compared.symm.trans again
          have fresh : ¬ Repeats elem.value v.value := fun repeats =>
            calm.1 ⟨pending, means.repeats repeats⟩
          simp [raised marked fresh]
        | false =>
          have differ : differs old v = true := by simpa [pending, forced] using due
          have marks := compareChanged_marks readable means compared differ fun unmarked retyped =>
            calm.2 ⟨by rw [mapOf_ref found]; exact unmarked, retyped⟩
          simp [marks]

theorem tracks_step (band : DeadBand) {ref : TagRef} {s : Watched} {op : CacheOp}
    (tracks : Tracks ref s)
    (allowed : Unmissed ref s op) : ∃ s', watchedStep band ref s op = some s' ∧ Tracks ref s' := by
  obtain ⟨cache', seen, stepped, kept, effect⟩ := cacheStep_done band tracks.inv allowed.1
  refine ⟨(cache', s.2.next ref op seen), by simp [watchedStep, stepped], ?_⟩
  by_cases away : op.ref ≠ ref
  · have frame := effect_frame effect away
    rw [next_away away]
    exact ⟨kept, frame ▸ tracks.latest, frame ▸ tracks.marked⟩
  obtain rfl : op.ref = ref := not_not.1 away
  cases op with
  | add at' v =>
    have next : s.2.next at' (.add at' v) seen = ⟨some v, false⟩ := if_pos rfl
    refine ⟨kept, ?_, fun due => ?_⟩
    · simp [effect.2, CacheOp.ref, next]
    · simp [CacheOp.ref, next] at due
  | update at' timestamp v metas change fresh => exact update_tracks tracks allowed kept effect
  | get at' =>
    have same : mapOf cache' = mapOf s.1 := effect.2
    exact ⟨kept, same ▸ tracks.latest, same ▸ tracks.marked⟩
  | metaGet at' nMeta =>
    have same : mapOf cache' = mapOf s.1 := effect.2
    exact ⟨kept, same ▸ tracks.latest, same ▸ tracks.marked⟩
  | getChanged at' =>
    have next : s.2.next at' (.getChanged at') seen = { s.2 with due := s.2.due && seen.isNone } :=
      if_pos rfl
    exact next ▸ takes_tracks tracks kept effect
  | metaGetChanged at' nMeta =>
    have next : s.2.next at' (.metaGetChanged at' nMeta) seen =
        { s.2 with due := s.2.due && seen.isNone } := if_pos rfl
    exact next ▸ takes_tracks tracks kept effect
  | del at' =>
    have next : s.2.next at' (.del at') seen = ⟨none, false⟩ := if_pos rfl
    refine ⟨kept, ?_, fun due => ?_⟩
    · simp [effect.2, CacheOp.ref, next]
    · simp [CacheOp.ref, next] at due

def Reports (band : DeadBand) (cache : NeuDriverCache) (reader : CacheOp) (v : CallerValue) : Prop :=
  ∃ cache' view, cacheStep band cache reader = some (cache', some view) ∧
    view.type = v.value.type ∧ view.payload = v.payload

theorem tracks_reports {ref : TagRef} {s : Watched} {nMeta : Fin 4} (tracks : Tracks ref s)
    (due : s.2.due = true) : ∃ v, s.2.latest = some v ∧ Reports band s.1 (.getChanged ref) v ∧
      Reports band s.1 (.metaGetChanged ref nMeta) v := by
  obtain ⟨e, found, marked⟩ := tracks.marked due
  have latest := tracks.latest
  rw [found, Option.map_some] at latest
  obtain ⟨v, stored, same⟩ := Option.map_eq_some_iff.1 latest.symm
  injection same with type rest
  injection rest with content
  have pending : (mapOf s.1 ref.names).filter Entry.changed = some e := by
    rw [found, Option.filter_some, if_pos marked]
  refine ⟨v, stored, ?_, ?_⟩
  · obtain ⟨cache', seen, stepped, _, takes⟩ :=
      cacheStep_done band tracks.inv (show CacheSafe s.1 (.getChanged ref) from trivial)
    simp only [Effect, TakesChanged, pending] at takes
    exact ⟨cache', _, takes.1 ▸ stepped, type.symm, content.symm⟩
  · obtain ⟨cache', seen, stepped, _, takes⟩ :=
      cacheStep_done band tracks.inv (show CacheSafe s.1 (.metaGetChanged ref nMeta) from trivial)
    simp only [Effect, TakesChanged, pending] at takes
    exact ⟨cache', _, takes.1 ▸ stepped, type.symm, content.symm⟩

def watchNew : Watched := (neuDriverCacheNew, ⟨none, false⟩)

theorem watchNew_tracks (ref : TagRef) : Tracks ref watchNew where
  inv := cacheNew_inv
  latest := rfl
  marked due := by cases due

theorem no_lost_change (band : DeadBand) (ref : TagRef) (nMeta : Fin 4) (ops : List CacheOp)
    (allowed : Along (watchedStep band ref) (Unmissed ref) watchNew ops) :
    ∃ cache w, ops.foldlM (watchedStep band ref) watchNew = some (cache, w) ∧
      (w.due = true → ∃ v, w.latest = some v ∧ Reports band cache (.getChanged ref) v ∧
        Reports band cache (.metaGetChanged ref nMeta) v) := by
  have progress (s : Watched) (op : CacheOp) (tracks : Tracks ref s) (meets : Unmissed ref s op) :=
    tracks_step band tracks meets
  obtain ⟨⟨cache, w⟩, ran, tracks⟩ := ends_of_step progress (watchNew_tracks ref) allowed
  exact ⟨cache, w, ran, tracks_reports tracks⟩

theorem no_lost_change_int8 : ∃ cache w,
    [CacheOp.add groupTag (.plain .int8 (.ofU32 0) (by decide)),
      .update groupTag 5 (.plain .int8 (.ofU32 7) (by decide)) ⟨[], by decide⟩ false 0,
      .update groupTag 6 (.plain .int8 (.ofU32 7) (by decide)) ⟨[], by decide⟩ false 0].foldlM
        (watchedStep exactBand groupTag) watchNew = some (cache, w) ∧
      (w.due = true → ∃ v, w.latest = some v ∧ Reports exactBand cache (.getChanged groupTag) v ∧
        Reports exactBand cache (.metaGetChanged groupTag 3) v) := by
  have updated (s : Watched) (timestamp : Int) : Unmissed groupTag s
      (.update groupTag timestamp (.plain .int8 (.ofU32 7) (by decide)) ⟨[], by decide⟩ false
        0) := by
    refine ⟨fun _ _ type => ?_, fun _ _ _ _ => ⟨fun lost => ?_, fun lost => ?_⟩⟩
    · cases type
    · obtain ⟨_, _, _, ⟨type, _⟩ | ⟨type, _⟩⟩ := lost <;> cases type
    · obtain ⟨_, _, type, _⟩ := lost
      cases type
  refine no_lost_change exactBand groupTag 3 _ ⟨⟨fun type => ?_, trivial⟩, fun _ _ => ⟨updated _ 5,
    fun _ _ => ⟨updated _ 6, fun _ _ => trivial⟩⟩⟩
  cases type

/-- 1.0 comes twice before the report, and the second update takes the flag away. -/
def floatAgain : List CacheOp :=
  [.add groupTag (.plain .float (.ofU32 0) float_plain),
    .update groupTag 5 (.plain .float (.ofU32 0x3f800000) float_plain) ⟨[], noMetas_fit⟩ false 0,
    .update groupTag 6 (.plain .float (.ofU32 0x3f800000) float_plain) ⟨[], noMetas_fit⟩ false 0]

theorem float_change_lost : ¬ ∀ cache w,
    floatAgain.foldlM (watchedStep exactBand groupTag) watchNew = some (cache, w) → w.due = true →
      ∃ v, w.latest = some v ∧ Reports exactBand cache (.getChanged groupTag) v := by
  intro all
  have silent : ((floatAgain.foldlM (watchedStep exactBand groupTag) watchNew).map fun s =>
      (s.2.due, (cacheStep exactBand s.1 (.getChanged groupTag)).map (·.2.isSome))) =
        some (true, some false) := by decide +kernel
  obtain ⟨⟨cache, w⟩, ran, ended⟩ := Option.map_eq_some_iff.1 silent
  injection ended with due unreported
  obtain ⟨_, _, cache', view, reported, _⟩ := all cache w ran due
  rw [reported] at unreported
  cases unreported

end Cpm
