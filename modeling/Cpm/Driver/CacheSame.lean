import Cpm.Driver.CacheChange

/-! Updates that bring a reported value again: which of them count as a change. -/
namespace Cpm

open Lib Lib.Run

variable {band : DeadBand}

def Payload.number (p : Payload) : Nat := Nat.ofDigits 256 (p.front.map UInt8.toNat)

def Payload.text (p : Payload) : List UInt8 := p.front.takeWhile (· ≠ 0)

/-- Two payloads of a type denote one value. The two zeros of a floating type do, too. -/
def SameValue (type : NeuType) (p q : Payload) : Prop :=
  match type with
  | .string => p.text = q.text
  | .float => p = q ∨ (Ieee.binary32.isZero p.number ∧ Ieee.binary32.isZero q.number)
  | .double => p = q ∨ (Ieee.binary64.isZero p.number ∧ Ieee.binary64.isZero q.number)
  | _ => p = q

def cacheNext (band : DeadBand) (cache : NeuDriverCache) (op : CacheOp) : Option NeuDriverCache :=
  (cacheStep band cache op).map Prod.fst

/-- What may follow the report of a value: updates that bring it again, readers, and anything
about other keys. -/
def Restating (ref : TagRef) (view : View) : CacheOp → Prop
  | .update at' _ v _ change _ => at' = ref → change = false ∧ v.value.type = view.type ∧
      SameValue view.type view.payload v.payload
  | .add at' _ | .del at' => at' ≠ ref
  | .get _ | .metaGet _ _ | .getChanged _ | .metaGetChanged _ _ => True

/-- The update does not count as a change: it is not BYTES, which are never compared; it fills
the whole union as the stored value does, or is a number or a pointer value, which are compared
as such, or of a type that is not known; and it is not a NaN that is compared without a precision. -/
def Uncounted (elem : Elem) (v : CallerValue) : Prop :=
  match v.value.type with
  | .bytes => False
  | .ptr | .error | .unlisted _ => True
  | .float => elem.value.precision = 0 → Ieee.binary32.isNan v.value.value.f32 = false
  | .double => elem.value.precision = 0 → Ieee.binary64.isNan v.value.value.d64 = false
  | _ => elem.value.value = v.value.value

def Unnoticed (ref : TagRef) (cache : NeuDriverCache) : CacheOp → Prop
  | .update at' _ v _ _ _ => at' = ref →
      ∀ elem, cache.table.find (keyOf ref.group ref.tag) = some elem → Uncounted elem v
  | _ => True

def Silent (band : DeadBand) (ref : TagRef) (cache : NeuDriverCache) : Prop :=
  (cacheStep band cache (.getChanged ref)).map Prod.snd = some none

theorem sameValue_refl (type : NeuType) (p : Payload) : SameValue type p p := by
  cases type
  case float | double => exact .inl rfl
  all_goals rfl

theorem sameValue_symm {type : NeuType} {p q : Payload} (same : SameValue type p q) :
    SameValue type q p := by
  cases type
  case float | double => exact same.imp Eq.symm And.symm
  all_goals exact Eq.symm same

theorem sameValue_trans {type : NeuType} {p q r : Payload} (first : SameValue type p q)
    (second : SameValue type q r) : SameValue type p r := by
  cases type
  case float | double =>
    obtain rfl | zeros := first
    · exact second
    · obtain rfl | zeros' := second
      · exact .inr zeros
      · exact .inr ⟨zeros.1, zeros'.2⟩
  all_goals exact Eq.trans first second

/-- Numbers that are one value differ at most as a NaN differs from itself. -/
theorem ne_again (f : Ieee) {a b : Nat}
    (same : a = b ∨ (f.isZero a ∧ f.isZero b)) : f.ne a b = f.isNan b := by
  have plain {x : Nat} (zero : f.isZero x = true) : f.isNan x = false := by
    simp only [Ieee.isZero, Bool.and_eq_true, decide_eq_true_eq] at zero
    simp [Ieee.isNan, zero.2]
  obtain rfl | ⟨left, right⟩ := same
  · cases nan : f.isNan a <;> simp [Ieee.ne, nan]
  · simp [Ieee.ne, plain left, plain right, left, right]

/-- A floating number that comes again counts as a change if it is a NaN and has no precision. -/
theorem floating_again (f : Ieee) {beyond : UInt8 → Nat → Nat → Bool} {precision : UInt8} {a b : Nat}
    {changed : Bool} (near : beyond precision a b = false) (same : a = b ∨ (f.isZero a ∧ f.isZero b))
    (compared : (if precision = 0 then some (f.ne a b) else some (false || beyond precision a b)) =
      some changed) : changed = false ↔ (precision = 0 → f.isNan b = false) := by
  by_cases exact : precision = 0
  · rw [if_pos exact, ne_again f same] at compared
    cases compared
    simp [exact]
  · rw [if_neg exact, near] at compared
    cases compared
    simp [exact]

theorem compareChanged_again {heap : Heap} {elem : Elem} {v : CallerValue} {changed : Bool}
    (stored : Stored heap elem)
    (compared : compareChanged band heap elem v.value v.data = some changed)
    (idle : elem.changed = false) (type : elem.value.type = v.value.type)
    (sound : v.value.type ≠ .error)
    (same : SameValue v.value.type (entryOf heap elem).payload v.payload) :
    changed = false ↔ Uncounted elem v := by
  rw [compareChanged, if_neg (not_not.2 type)] at compared
  rw [entryOf, CallerValue.payload, type] at same
  cases is : v.value.type with
  | bytes =>
    simp only [is] at compared
    have marked : changed = true := by
      split at compared
      · exact (Option.some.inj compared).symm
      · split at compared
        · exact (Option.some.inj compared).symm
        · cases compared
    simp [Uncounted, is, marked]
  | ptr =>
    simp only [is, SameValue] at compared same
    injection same with front _ bytes
    have head : elem.value.value.window 0 6 = v.value.value.window 0 6 := front_injective front
    have length : elem.value.value.ptrLength = v.value.value.ptrLength := by
      have inner := congrArg (fun b : Block 6 => (b.window 4 2).leValue) head
      simp only [Block.window_window _ (by decide : 4 + 2 ≤ 6)] at inner
      exact inner
    obtain ⟨before, read⟩ := stored.readable (type.trans is)
    simp only [read, Option.getD_some, if_true] at bytes
    rw [if_neg (not_not.2 length), ← length, read, length, v.readCaller_data is, idle] at compared
    cases compared
    simp [Uncounted, is, bytes]
  | float =>
    simp only [is, idle, SameValue] at compared same
    have number : elem.value.value.f32 = v.value.value.f32 ∨
        (Ieee.binary32.isZero elem.value.value.f32 ∧ Ieee.binary32.isZero v.value.value.f32) :=
      same.imp f32_of_payload id
    rw [Uncounted, is]
    exact floating_again Ieee.binary32 (band.float_self _ _ _ number) number compared
  | double =>
    simp only [is, idle, SameValue] at compared same
    have number : elem.value.value.d64 = v.value.value.d64 ∨
        (Ieee.binary64.isZero elem.value.value.d64 ∧ Ieee.binary64.isZero v.value.value.d64) :=
      same.imp d64_of_payload id
    rw [Uncounted, is]
    exact floating_again Ieee.binary64 (band.double_self _ _ _ number) number compared
  | error => exact absurd is sound
  | _ =>
    simp only [is, idle] at compared
    rw [← Option.some.inj compared]
    simp [Uncounted, is]

/-- The entry after a report: not marked, and with the reported value. -/
structure Settled (ref : TagRef) (view : View) (cache : NeuDriverCache) : Prop where
  inv : CacheInv cache
  entry : ∃ e, mapOf cache ref.names = some e ∧ e.changed = false ∧ e.type = view.type ∧
    SameValue view.type view.payload e.payload

theorem silent_iff {ref : TagRef} {cache : NeuDriverCache} (inv : CacheInv cache) :
    Silent band ref cache ↔ (mapOf cache ref.names).filter Entry.changed = none := by
  obtain ⟨cache', seen, stepped, _, takes⟩ := getChanged_done band inv
  unfold Silent
  rw [stepped]
  simp only [Effect, TakesChanged] at takes
  split at takes
  · next idle => simp [takes.1, idle]
  · next e marked => simp [takes.1, marked]

theorem Settled.idle {ref : TagRef} {view : View} {cache : NeuDriverCache}
    (settled : Settled ref view cache) : (mapOf cache ref.names).filter Entry.changed = none := by
  obtain ⟨e, found, idle, _⟩ := settled.entry
  simp [found, idle]

/-- A step of the run: it returns, and the entry stays as it was reported exactly if the step
counts no change. -/
theorem settled_step (band : DeadBand) {ref : TagRef} {view : View} (sound : view.type ≠ .error)
    (cache : NeuDriverCache) (op : CacheOp) (settled : Settled ref view cache)
    (allowed : CacheSafe cache op ∧ Restating ref view op) :
    ∃ next, cacheNext band cache op = some next ∧ (Silent band ref next ↔ Unnoticed ref cache op) ∧
      (Unnoticed ref cache op → Settled ref view next) := by
  obtain ⟨safe, restating⟩ := allowed
  obtain ⟨e, found, idle, type, value⟩ := settled.entry
  obtain ⟨next, seen, stepped, inv, effect⟩ := cacheStep_done band settled.inv safe
  refine ⟨next, by rw [cacheNext, stepped]; rfl, ?_⟩
  rw [silent_iff inv]
  -- An operation that keeps the entry goes unnoticed.
  have keeps (quiet : Unnoticed ref cache op) (same : mapOf next ref.names = mapOf cache ref.names) :
      ((mapOf next ref.names).filter Entry.changed = none ↔ Unnoticed ref cache op) ∧
        (Unnoticed ref cache op → Settled ref view next) := by
    have again : Settled ref view next := ⟨inv, e, same.trans found, idle, type, value⟩
    exact ⟨⟨fun _ => quiet, fun _ => again.idle⟩, fun _ => again⟩
  by_cases away : op.ref ≠ ref
  · refine keeps ?_ (effect_frame effect away)
    cases op with
    | update at' timestamp v metas change fresh => exact fun here => absurd here away
    | _ => trivial
  obtain rfl : op.ref = ref := not_not.1 away
  cases op with
  | add at' v => exact absurd rfl restating
  | del at' => exact absurd rfl restating
  | get at' | metaGet at' nMeta => exact keeps trivial (congrFun effect.2 _)
  | getChanged at' | metaGetChanged at' nMeta =>
    have idle := settled.idle
    simp only [Effect, TakesChanged, CacheOp.ref] at effect idle
    rw [idle] at effect
    exact keeps trivial (congrFun effect.2 _)
  | update at' timestamp v metas change fresh =>
    obtain ⟨rfl, type', value'⟩ := restating rfl
    obtain ⟨elem, stored, rfl⟩ := Option.map_eq_some_iff.1 found
    have mapped := effect.2
    simp only [CacheOp.ref, TagRef.names] at stored
    simp only [stored] at mapped
    obtain ⟨changed, compared, mapped⟩ := mapped
    have counted := compareChanged_again (settled.inv.stored _ elem stored) compared idle
      (type.trans type'.symm) (type' ▸ sound)
      (type' ▸ sameValue_trans (sameValue_symm value) value')
    have quiet : Unnoticed at' cache (.update at' timestamp v metas false fresh) ↔
        Uncounted elem v := by
      simp [Unnoticed, stored]
    simp only [CacheOp.ref] at quiet ⊢
    rw [quiet, mapped, Function.update_self, ← counted]
    refine ⟨by simp [Option.filter_some], fun unchanged => ⟨inv,
      ⟨v.value.type, v.payload, elem.value.precision, timestamp, metasOf metas.val, changed || false⟩,
      ?_, ?_, type', value'⟩⟩
    · rw [mapped, Function.update_self]
    · simp [unchanged]

theorem restated_silent_iff (band : DeadBand) (ref : TagRef) (before ops : List CacheOp)
    (cache reported : NeuDriverCache) (view : View)
    (safe : Along (cacheNext band) CacheSafe neuDriverCacheNew before)
    (ran : before.foldlM (cacheNext band) neuDriverCacheNew = some cache)
    (report : cacheStep band cache (.getChanged ref) = some (reported, some view))
    (sound : view.type ≠ .error)
    (restating : Along (cacheNext band) (fun cache op => CacheSafe cache op ∧ Restating ref view op)
      reported ops) :
    Along (cacheNext band) (Unnoticed ref) reported ops ↔ ∀ front, front <+: ops →
      ∃ after, front.foldlM (cacheNext band) reported = some after ∧ Silent band ref after := by
  have preserved (cache : NeuDriverCache) (op : CacheOp) (next : NeuDriverCache)
      (inv : CacheInv cache) (safe : CacheSafe cache op)
        (stepped : cacheNext band cache op = some next) :
      CacheInv next := by
    obtain ⟨next', seen, stepped', inv', _⟩ := cacheStep_done band inv safe
    rw [cacheNext, stepped'] at stepped
    cases stepped
    exact inv'
  have inv : CacheInv cache := invariant_of_step preserved cacheNew_inv safe ran
  have settled : Settled ref view reported := by
    obtain ⟨reported', seen, stepped, inv', takes⟩ := getChanged_done band inv
    cases stepped.symm.trans report
    simp only [Effect, TakesChanged] at takes
    split at takes
    · cases takes.1
    · next e marked =>
      injection takes.1 with same
      subst same
      refine ⟨inv', e.reported, ?_, ?_, rfl, ?_⟩
      · rw [takes.2, Function.update_self]
      · simp only [Entry.reported, Bool.and_eq_false_iff, decide_eq_false_iff_not]
        exact .inr sound
      · exact sameValue_refl _ _
  have silent : Silent band ref reported := (silent_iff settled.inv).2 settled.idle
  exact along_iff_good (settled_step band sound) settled silent restating

def update7 (timestamp : Int) : CacheOp :=
  .update groupTag timestamp (.plain .float (.ofU32 7) float_plain) ⟨[], noMetas_fit⟩ false 0

theorem restated_silent_seven : ∃ cache reported view,
    cacheStep exactBand cache (.getChanged groupTag) = some (reported, some view) ∧
      (Along (cacheNext exactBand) (Unnoticed groupTag) reported [update7 6] ↔ ∀ front, front <+: [update7 6] →
        ∃ after, front.foldlM (cacheNext exactBand) reported = some after ∧
            Silent exactBand groupTag after) := by
  have ends : (([CacheOp.add groupTag (.plain .float (.ofU32 0) float_plain), update7 5].foldlM
      (cacheNext exactBand) neuDriverCacheNew).bind fun cache => (cacheStep exactBand cache (.getChanged groupTag)).bind
        fun r => r.2.map fun view => (view.type, view.payload)) =
      some (.float, ⟨[7, 0, 0, 0], 0, []⟩) := by decide +kernel
  obtain ⟨cache, ran, ends⟩ := Option.bind_eq_some_iff.1 ends
  obtain ⟨⟨reported, seen⟩, report, ends⟩ := Option.bind_eq_some_iff.1 ends
  obtain ⟨view, rfl, shown⟩ := Option.map_eq_some_iff.1 ends
  obtain ⟨type, value⟩ := Prod.mk.inj shown
  have plain (cache : NeuDriverCache) (timestamp : Int) : CacheSafe cache (update7 timestamp) :=
    fun _ _ pointer => absurd pointer (by decide)
  have safe : Along (cacheNext exactBand) CacheSafe neuDriverCacheNew
      [.add groupTag (.plain .float (.ofU32 0) float_plain), update7 5] :=
    ⟨fun pointer => absurd pointer (by decide), fun _ _ => ⟨plain _ 5, fun _ _ => trivial⟩⟩
  have again : Restating groupTag view (update7 6) := by
    refine fun _ => ⟨rfl, type.symm, ?_⟩
    rw [type, value]
    exact .inl (by decide +kernel)
  refine ⟨cache, reported, view, report,
    restated_silent_iff exactBand groupTag _ [update7 6] cache reported
    view safe ran report ?_ ⟨⟨plain _ 6, again⟩, fun _ _ => trivial⟩⟩
  rw [type]
  decide

def letterA : ValueU := (Block.zero.overlay NEU_VALUE_SIZE (Block.leBlock 1 1)).overlay 0
  (Block.leBlock 1 65)

theorem letterA_fits : letterA.bytesLength ≤ NEU_VALUE_SIZE := by decide +kernel

def bytesA : CallerValue :=
  ⟨⟨.bytes, letterA, 0⟩, [], fun _ => letterA_fits, fun is => absurd is (by decide),
    fun is => absurd is (by decide)⟩

def updateA (timestamp : Int) : CacheOp :=
  .update groupTag timestamp bytesA ⟨[], noMetas_fit⟩ false 0

/-- The same byte comes again after its report, and is reported again. -/
theorem bytes_reported_again : ¬ ∀ cache reported view,
    [CacheOp.add groupTag bytesA, updateA 5].foldlM (cacheNext exactBand) neuDriverCacheNew =
        some cache →
    cacheStep exactBand cache (.getChanged groupTag) = some (reported, some view) →
    view.type = bytesA.value.type → view.payload = bytesA.payload →
      ∃ after, cacheNext exactBand reported (updateA 6) = some after ∧
          Silent exactBand groupTag after := by
  intro all
  have again : (([CacheOp.add groupTag bytesA, updateA 5].foldlM (cacheNext exactBand) neuDriverCacheNew).bind
      fun cache => (cacheStep exactBand cache (.getChanged groupTag)).bind fun r => r.2.bind fun view =>
        (cacheNext exactBand r.1 (updateA 6)).bind fun after =>
          (cacheStep exactBand after (.getChanged groupTag)).map fun s =>
            (view.type, view.payload, s.2.isSome)) =
      some (.bytes, bytesA.payload, true) := by decide +kernel
  obtain ⟨cache, ran, again⟩ := Option.bind_eq_some_iff.1 again
  obtain ⟨⟨reported, seen⟩, report, again⟩ := Option.bind_eq_some_iff.1 again
  obtain ⟨view, rfl, again⟩ := Option.bind_eq_some_iff.1 again
  obtain ⟨after, updated, again⟩ := Option.bind_eq_some_iff.1 again
  obtain ⟨⟨_, seen⟩, last, shown⟩ := Option.map_eq_some_iff.1 again
  injection shown with type rest
  injection rest with value present
  obtain ⟨after', updated', silent⟩ := all cache reported view ran report type value
  cases updated.symm.trans updated'
  rw [Silent, last] at silent
  cases silent
  cases present

end Cpm
