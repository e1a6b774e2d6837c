import Cpm.Driver.CacheMap

/-! What each operation of the cache does to the map, the pointer values with their blocks
included. -/
namespace Cpm

open Lib

variable {band : DeadBand}

theorem freePtr_frame {heap heap' : Heap} {address other : Nat}
    (freed : freePtr heap address = some heap') (apart : other ≠ address) :
    heap'.find other = heap.find other := by
  unfold freePtr at freed
  split at freed
  · cases freed
    rfl
  · split at freed
    · cases freed
      rw [Table.find_erase, if_neg apart]
    · cases freed

theorem CallerValue.readCaller_data (v : CallerValue) (pointer : v.value.type = .ptr) :
    readCaller v.data v.value.value.ptrLength = some v.data := by
  have long : v.data.length = v.value.value.ptrLength := v.dataFits pointer
  rw [readCaller, if_pos (Nat.le_of_eq long.symm), ← long, List.take_length]

theorem CallerValue.readPtr_data (v : CallerValue) (pointer : v.value.type = .ptr) {heap : Heap}
    {address : Nat} (found : v.value.value.ptrLength ≠ 0 → heap.find address = some v.data) :
    readPtr heap address v.value.value.ptrLength = some v.data := by
  have long : v.data.length = v.value.value.ptrLength := v.dataFits pointer
  unfold readPtr
  split
  · next empty => rw [List.eq_nil_of_length_eq_zero (long.trans empty)]
  · next some => rw [found some, Option.bind_some, ← long, if_pos le_rfl, List.take_length]

/-- A pointer value gets a block of its own; the type and the length beside the new pointer are
the caller's. -/
theorem storeValue_ptr {heap freed : Heap} {old : ValueU} {v : CallerValue} {fresh : Nat}
    (pointer : v.value.type = .ptr) (release : freePtr heap old.ptrPtr = some freed)
    (legal : freshAddress freed fresh = true) :
    ∃ u, storeValue heap old v.value v.data fresh = some (u, freed.insert fresh v.data) ∧
      u.ptrPtr = fresh ∧ u.ptrLength = v.value.value.ptrLength ∧
      u.window 0 6 = v.value.value.window 0 6 := by
  let sized : ValueU := (old.overlay 4 (v.value.value.window 4 2)).overlay 0 v.value.value.ptrType
  let u : ValueU := sized.overlay 8 (Block.leBlock 8 fresh)
  have typed : u.window 0 4 = v.value.value.ptrType := by
    rw [Block.window_overlay_apart _ _ (by decide) (by decide),
      Block.window_overlay _ _ (by decide)]
  have length : u.window 4 2 = v.value.value.window 4 2 := by
    rw [Block.window_overlay_apart _ _ (by decide) (by decide),
      Block.window_overlay_apart _ _ (by decide) (by decide),
      Block.window_overlay _ _ (by decide)]
  have front : u.window 0 6 = v.value.value.window 0 6 := Block.window_join typed length
  refine ⟨u, ?_, ?_, ?_, front⟩
  · simp [storeValue, pointer, v.readCaller_data pointer, release, legal, u, sized]
  · have small : fresh < 2 ^ 64 := by
      simp only [freshAddress, Bool.and_eq_true, decide_eq_true_eq] at legal
      exact legal.1.2
    have back : u.window 8 8 = Block.leBlock 8 fresh := Block.window_overlay sized _ (by decide)
    have width : (256 : Nat) ^ 8 = 2 ^ 64 := by norm_num
    rw [ValueU.ptrPtr, back, Block.leValue_leBlock, width, Nat.mod_eq_of_lt small]
  · rw [ValueU.ptrLength, length]
    rfl

/- Conditions of the operations. -/

def Foreign (heap : Heap) (value : NeuDvalue) : Prop :=
  value.type = .ptr → value.value.ptrPtr ≠ 0 → heap.find value.value.ptrPtr = none

/-- A pointer is stored over a pointer, or over a value whose bytes are no pointer; the new
block stands at an address that calloc can return. -/
def Replaceable (heap : Heap) (elem : Elem) (value : NeuDvalue) (fresh : Nat) : Prop :=
  value.type = .ptr → (elem.value.type ≠ .ptr → elem.value.value.ptrPtr = 0) ∧
    ∀ freed, freePtr heap elem.value.value.ptrPtr = some freed → freshAddress freed fresh = true

/-- What the callers owe the cache. -/
def CacheSafe (cache : NeuDriverCache) : CacheOp → Prop
  | .add _ v => Foreign cache.heap v.value
  | .update ref _ v _ _ fresh => ∀ elem, cache.table.find (keyOf ref.group ref.tag) = some elem →
      Replaceable cache.heap elem v.value fresh
  | .get _ | .metaGet _ _ | .getChanged _ | .metaGetChanged _ _ | .del _ => True

def Effect (band : DeadBand) (cache : NeuDriverCache) (op : CacheOp) (m' : TagMap)
    (seen : Option View) : Prop :=
  let m := mapOf cache
  match op with
  | .add ref v => seen = none ∧ m' = Function.update m ref.names
      (some ⟨v.value.type, v.payload, v.value.precision, 0,
        ((m ref.names).map Entry.metas).getD noMetas, false⟩)
  | .update ref timestamp v metas change _ => seen = none ∧
      match cache.table.find (keyOf ref.group ref.tag) with
      | none => m' = m
      | some elem => ∃ changed, compareChanged band cache.heap elem v.value v.data = some changed ∧
          m' = Function.update m ref.names (some ⟨v.value.type, v.payload, elem.value.precision,
            timestamp, metasOf metas.val, changed || change⟩)
  | .get ref => seen = (m ref.names).map (·.view none) ∧ m' = m
  | .metaGet ref _ => seen = (m ref.names).map Entry.viewMeta ∧ m' = m
  | .getChanged ref => TakesChanged m ref.names (·.view none) m' seen
  | .metaGetChanged ref _ => TakesChanged m ref.names Entry.viewMeta m' seen
  | .del ref => seen = none ∧ m' = Function.update m ref.names none

/-- A FLOAT or DOUBLE without precision comes again: the comparison lowers the flag. -/
def Repeats (old value : NeuDvalue) : Prop :=
  old.type = value.type ∧ old.precision = 0 ∧
    (value.type = .float ∧ Ieee.binary32.ne old.value.f32 value.value.f32 = false ∨
      value.type = .double ∧ Ieee.binary64.ne old.value.d64 value.value.d64 = false)

theorem compareChanged_keeps (band : DeadBand) {heap : Heap} {elem : Elem} (stored : Stored heap elem)
    (v : CallerValue) :
    ∃ changed, compareChanged band heap elem v.value v.data = some changed ∧
      (elem.changed = true → ¬ Repeats elem.value v.value → changed = true) := by
  unfold compareChanged
  by_cases other : elem.value.type ≠ v.value.type
  · exact ⟨true, if_pos other, fun _ _ => rfl⟩
  · have same : elem.value.type = v.value.type := not_not.1 other
    simp only [if_neg other]
    cases type : v.value.type with
    | bytes =>
      by_cases lengths : elem.value.value.bytesLength ≠ v.value.value.bytesLength
      · exact ⟨true, if_pos lengths, fun _ _ => rfl⟩
      · exact ⟨true, by rw [if_neg lengths, if_pos (v.bytesFit type)], fun _ _ => rfl⟩
    | ptr =>
      by_cases lengths : elem.value.value.ptrLength ≠ v.value.value.ptrLength
      · exact ⟨true, if_pos lengths, fun _ _ => rfl⟩
      · obtain ⟨before, read⟩ := stored.readable (same.trans type)
        rw [not_not.1 lengths] at read
        refine ⟨elem.changed || before ≠ v.data, ?_, fun changed _ => by simp [changed]⟩
        simp [not_not.1 lengths, read, v.readCaller_data type]
    | float =>
      by_cases precision : elem.value.precision = 0
      · refine ⟨_, if_pos precision, fun _ noRepeat => ?_⟩
        by_contra equal
        exact noRepeat ⟨same, precision, .inl ⟨type, Bool.not_eq_true _ ▸ equal⟩⟩
      · exact ⟨_, if_neg precision, fun changed _ => by simp [changed]⟩
    | double =>
      by_cases precision : elem.value.precision = 0
      · refine ⟨_, if_pos precision, fun _ noRepeat => ?_⟩
        by_contra equal
        exact noRepeat ⟨same, precision, .inr ⟨type, Bool.not_eq_true _ ▸ equal⟩⟩
      · exact ⟨_, if_neg precision, fun changed _ => by simp [changed]⟩
    | error => exact ⟨true, rfl, fun _ _ => rfl⟩
    | _ => exact ⟨_, rfl, fun changed _ => by simp [changed]⟩

def Done (band : DeadBand) (cache : NeuDriverCache) (op : CacheOp) : Prop :=
  ∃ cache' seen, cacheStep band cache op = some (cache', seen) ∧ CacheInv cache' ∧
    Effect band cache op (mapOf cache') seen

theorem mapOf_ref {cache : NeuDriverCache} {ref : TagRef} {found : Option Elem}
    (find : cache.table.find (keyOf ref.group ref.tag) = found) :
    mapOf cache ref.names = found.map (entryOf cache.heap) := by rw [← find]; rfl

variable (band)

theorem add_done {cache : NeuDriverCache} {ref : TagRef} {v : CallerValue}
    (inv : CacheInv cache) (foreign : CacheSafe cache (.add ref v)) : Done band cache (.add ref v) := by
  let metas : Metas :=
    ((cache.table.find (keyOf ref.group ref.tag)).map Elem.metas).getD noMetas
  have kept : metas = ((mapOf cache ref.names).map Entry.metas).getD noMetas := by
    rw [mapOf_ref rfl, Option.map_map]
    rfl
  let elem : Elem := ⟨0, false, v.value, metas⟩
  obtain ⟨heap, adopted, own, others⟩ : ∃ heap, adoptPtr cache.heap v.value v.data = some heap ∧
      (v.value.type = .ptr → v.value.value.ptrPtr ≠ 0 →
        heap.find v.value.value.ptrPtr = some v.data) ∧
      ∀ address block, cache.heap.find address = some block →
        heap.find address = some block ∧ ¬ Owns elem address := by
    unfold adoptPtr
    by_cases pointer : v.value.type = .ptr ∧ v.value.value.ptrPtr ≠ 0
    · have unused := foreign pointer.1 pointer.2
      refine ⟨_, by rw [if_pos pointer, if_pos unused], fun _ _ => ?_, fun address block live => ?_⟩
      · rw [Table.find_insert, if_pos rfl]
      · have apart : address ≠ v.value.value.ptrPtr := by
          intro same
          rw [same, unused] at live
          cases live
        rw [Table.find_insert, if_neg apart]
        exact ⟨live, fun owns => apart owns.2.1.symm⟩
    · refine ⟨_, if_neg pointer, fun type nonnull => absurd ⟨type, nonnull⟩ pointer,
        fun address block live => ⟨live, fun owns => ?_⟩⟩
      have same : v.value.value.ptrPtr = address := owns.2.1
      exact pointer ⟨owns.1, same ▸ owns.2.2⟩
  have stored : Stored heap elem := by
    refine ⟨v.bytesFit, v.nullEmpty, fun address owns => ?_⟩
    obtain ⟨type, same, nonnull⟩ := owns
    have here : v.value.value.ptrPtr = address := same
    subst here
    exact ⟨v.data, own type nonnull, Nat.le_of_eq (v.dataFits type).symm⟩
  have entry : entryOf heap elem =
      ⟨v.value.type, v.payload, v.value.precision, 0, metas, false⟩ := by
    have same : payload v.value.type v.value.value
        ((readPtr heap v.value.value.ptrPtr v.value.value.ptrLength).getD []) = v.payload := by
      by_cases type : v.value.type = .ptr
      · have read := v.readPtr_data type fun some =>
          own type fun null => some (v.nullEmpty type null)
        rw [read]
        rfl
      · simp [CallerValue.payload, payload, type]
    simp only [entryOf, elem, same]
  have frame : ∀ key other address, key ≠ keyOf ref.group ref.tag →
      cache.table.find key = some other → Owns other address →
      heap.find address = cache.heap.find address ∧ ¬ Owns elem address := by
    intro key other address _ found owns
    obtain ⟨block, live, _⟩ := (inv.stored key other found).live address owns
    rw [live]
    exact others address block live
  obtain ⟨invariant, mapped⟩ := put_entry inv stored frame
  refine ⟨⟨cache.table.insert (keyOf ref.group ref.tag) elem, heap⟩, none, ?_, invariant, rfl, ?_⟩
  · simp [cacheStep, neuDriverCacheAdd, toKey_ref, adopted, elem, metas]
  · rw [mapped, entry, kept]

/-- What a value is stored as: the new union and heap mean what the caller passed, and no other
entry loses its block. -/
theorem storeValue_entry {cache : NeuDriverCache} {ref : TagRef} {old : Elem} {v : CallerValue}
    {fresh : Nat} (inv : CacheInv cache)
    (found : cache.table.find (keyOf ref.group ref.tag) = some old)
    (allowed : Replaceable cache.heap old v.value fresh) :
    ∃ u heap, storeValue cache.heap old.value.value v.value v.data fresh = some (u, heap) ∧
      ∀ timestamp changed metas,
        let elem : Elem := ⟨timestamp, changed, ⟨v.value.type, u, old.value.precision⟩, metas⟩
        Stored heap elem ∧ entryOf heap elem =
          ⟨v.value.type, v.payload, old.value.precision, timestamp, metas, changed⟩ ∧
        ∀ key other address, key ≠ keyOf ref.group ref.tag →
          cache.table.find key = some other → Owns other address →
          heap.find address = cache.heap.find address ∧ ¬ Owns elem address := by
  by_cases pointer : v.value.type = .ptr
  · obtain ⟨plain, legal⟩ := allowed pointer
    obtain ⟨freed, release⟩ : ∃ freed, freePtr cache.heap old.value.value.ptrPtr = some freed := by
      by_cases null : old.value.value.ptrPtr = 0
      · exact ⟨cache.heap, if_pos null⟩
      · have type : old.value.type = .ptr := by
          by_contra other
          exact null (plain other)
        obtain ⟨block, live, _⟩ := (inv.stored _ old found).live _ ⟨type, rfl, null⟩
        exact ⟨_, by rw [freePtr, if_neg null, live]; rfl⟩
    have unused := legal freed release
    obtain ⟨u, stores, address, length, front⟩ := storeValue_ptr pointer release unused
    simp only [freshAddress, Bool.and_eq_true, decide_eq_true_eq] at unused
    have here : (freed.insert fresh v.data).find fresh = some v.data := by
      rw [Table.find_insert, if_pos rfl]
    refine ⟨u, _, stores, fun timestamp changed metas => ⟨⟨?_, ?_, ?_⟩, ?_, ?_⟩⟩
    · intro bytes
      exact absurd (pointer.symm.trans bytes) (by decide)
    · intro _ null
      exact absurd (address.symm.trans null) unused.1.1
    · intro owned owns
      have same : owned = fresh := owns.2.1.symm.trans address
      refine ⟨v.data, by rw [same, here], ?_⟩
      exact Nat.le_of_eq (length.trans (v.dataFits pointer).symm)
    · have read := v.readPtr_data pointer fun _ => here
      have same : payload v.value.type u v.data = v.payload := by
        rw [CallerValue.payload, pointer]
        simp only [payload, NeuType.width, front, reduceCtorEq, if_false]
      simp only [entryOf, address, length, read, same, Option.getD_some]
    · intro key other owned away foundOther owns
      obtain ⟨block, live, _⟩ := (inv.stored key other foundOther).live owned owns
      have apart : owned ≠ old.value.value.ptrPtr := by
        intro same
        by_cases type : old.value.type = .ptr
        · exact away (inv.owner key _ other old _ foundOther found owns ⟨type, same.symm, owns.2.2⟩)
        · exact owns.2.2 (same.trans (plain type))
      have still := freePtr_frame release apart
      have notFresh : owned ≠ fresh := by
        rintro rfl
        rw [unused.2, live] at still
        cases still
      refine ⟨by rw [Table.find_insert, if_neg notFresh, still], fun owns' => ?_⟩
      exact notFresh (owns'.2.1.symm.trans address)
  · refine ⟨v.value.value, cache.heap, if_neg pointer,
      fun timestamp changed metas => ⟨⟨v.bytesFit, ?_, ?_⟩, ?_, ?_⟩⟩
    · exact fun type => absurd type pointer
    · exact fun _ owns => absurd owns.1 pointer
    · simp [entryOf, CallerValue.payload, payload, pointer]
    · exact fun _ _ _ _ _ _ => ⟨rfl, fun owns => pointer owns.1⟩

theorem update_done {cache : NeuDriverCache} {ref : TagRef} {timestamp : Int}
    {v : CallerValue} {metas : { l : List NeuTagMeta // l.length ≤ NEU_TAG_META_SIZE }}
    {change : Bool} {fresh : Nat} (inv : CacheInv cache)
    (safe : CacheSafe cache (.update ref timestamp v metas change fresh)) :
    Done band cache (.update ref timestamp v metas change fresh) := by
  cases found : cache.table.find (keyOf ref.group ref.tag) with
  | none =>
    refine ⟨cache, none, ?_, inv, rfl, ?_⟩
    · simp [cacheStep, neuDriverCacheUpdateChange, toKey_ref, found]
    · rw [found]
  | some old =>
    obtain ⟨changed, compared, _⟩ := compareChanged_keeps band (inv.stored _ old found) v
    obtain ⟨u, heap, stores, entry⟩ := storeValue_entry inv found (safe old found)
    obtain ⟨stored, same, frame⟩ := entry timestamp (changed || change) (metasOf metas.val)
    obtain ⟨kept, mapped⟩ := put_entry inv stored frame
    refine ⟨_, none, ?_, kept, rfl, ?_⟩
    · simp [cacheStep, neuDriverCacheUpdateChange, toKey_ref, found, compared, stores,
        metas.property]
    · simp only [found]
      exact ⟨changed, compared, by rw [mapped, same]⟩

theorem get_done {cache : NeuDriverCache} {ref : TagRef} (inv : CacheInv cache) :
    Done band cache (.get ref) := by
  cases found : cache.table.find (keyOf ref.group ref.tag) with
  | none =>
    refine ⟨cache, none, ?_, inv, ?_, rfl⟩
    · simp [cacheStep, neuDriverCacheGet, toKey_ref, found, viewPlain]
    · rw [mapOf_ref found]
      rfl
  | some elem =>
    obtain ⟨value, read, same⟩ := readElem_view (inv.stored _ elem found)
    refine ⟨cache, some (value.view none), ?_, inv, ?_, rfl⟩
    · simp [cacheStep, neuDriverCacheGet, toKey_ref, found, read, viewPlain]
    · rw [mapOf_ref found, same]
      rfl

theorem metaGet_done {cache : NeuDriverCache} (ref : TagRef) (nMeta : Fin 4)
    (inv : CacheInv cache) : Done band cache (.metaGet ref nMeta) := by
  have inRange : nMeta.val ≤ NEU_TAG_META_SIZE := Nat.le_of_lt_succ nMeta.isLt
  cases found : cache.table.find (keyOf ref.group ref.tag) with
  | none =>
    refine ⟨cache, none, ?_, inv, ?_, rfl⟩
    · simp [cacheStep, neuDriverCacheMetaGet, toKey_ref, found, viewMeta]
    · rw [mapOf_ref found]
      rfl
  | some elem =>
    obtain ⟨value, read, same⟩ := readElem_view (inv.stored _ elem found)
    refine ⟨cache, some (value.view (some elem.metas)), ?_, inv, ?_, rfl⟩
    · simp [cacheStep, neuDriverCacheMetaGet, toKey_ref, found, read, inRange, viewMeta]
    · rw [mapOf_ref found, same]
      rfl

theorem report_entry {cache : NeuDriverCache} {ref : TagRef} {elem : Elem} (inv : CacheInv cache)
    (found : cache.table.find (keyOf ref.group ref.tag) = some elem) :
    CacheInv { cache with table := cache.table.insert (keyOf ref.group ref.tag) elem.reported } ∧
      mapOf { cache with table := cache.table.insert (keyOf ref.group ref.tag) elem.reported } =
        Function.update (mapOf cache) ref.names
          (some (entryOf cache.heap elem).reported) := by
  obtain ⟨bytes, null, live⟩ := inv.stored _ elem found
  have stored : Stored cache.heap elem.reported := ⟨bytes, null, live⟩
  refine put_entry inv stored fun key other address away foundOther owns => ⟨rfl, fun owns' => ?_⟩
  exact away (inv.owner key _ other elem address foundOther found owns owns')

theorem mapOf_changed (cache : NeuDriverCache) (ref : TagRef) :
    (mapOf cache ref.names).filter Entry.changed =
      ((cache.table.find (keyOf ref.group ref.tag)).filter Elem.changed).map
        (entryOf cache.heap) := by
  rw [mapOf_ref rfl, Option.filter_map]
  rfl

theorem getChanged_done {cache : NeuDriverCache} {ref : TagRef} (inv : CacheInv cache) :
    Done band cache (.getChanged ref) := by
  cases marked : (cache.table.find (keyOf ref.group ref.tag)).filter Elem.changed with
  | none =>
    refine ⟨cache, none, ?_, inv, ?_⟩
    · simp [cacheStep, neuDriverCacheGetChanged, toKey_ref, marked, viewPlain]
    · simp [Effect, TakesChanged, mapOf_changed, marked]
  | some elem =>
    have found := (Option.filter_eq_some_iff.1 marked).1
    obtain ⟨value, read, same⟩ := readElem_view (inv.stored _ elem found)
    obtain ⟨kept, mapped⟩ := report_entry inv found
    refine ⟨_, some (value.view none), ?_, kept, ?_⟩
    · simp [cacheStep, neuDriverCacheGetChanged, toKey_ref, marked, read, viewPlain]
    · simp only [Effect, TakesChanged, mapOf_changed, marked, Option.map_some]
      exact ⟨by rw [same], mapped⟩

theorem metaGetChanged_done {cache : NeuDriverCache} {ref : TagRef} {nMeta : Fin 4}
    (inv : CacheInv cache) : Done band cache (.metaGetChanged ref nMeta) := by
  have inRange : nMeta.val ≤ NEU_TAG_META_SIZE := Nat.le_of_lt_succ nMeta.isLt
  cases marked : (cache.table.find (keyOf ref.group ref.tag)).filter Elem.changed with
  | none =>
    refine ⟨cache, none, ?_, inv, ?_⟩
    · simp [cacheStep, neuDriverCacheMetaGetChanged, toKey_ref, marked, viewMeta]
    · simp [Effect, TakesChanged, mapOf_changed, marked]
  | some elem =>
    have found := (Option.filter_eq_some_iff.1 marked).1
    obtain ⟨value, read, same⟩ := readElem_view (inv.stored _ elem found)
    obtain ⟨kept, mapped⟩ := report_entry inv found
    refine ⟨_, some (value.view (some elem.metas)), ?_, kept, ?_⟩
    · simp [cacheStep, neuDriverCacheMetaGetChanged, toKey_ref, marked, read, inRange, viewMeta]
    · simp only [Effect, TakesChanged, mapOf_changed, marked, Option.map_some]
      exact ⟨by rw [same]; rfl, mapped⟩

theorem del_done {cache : NeuDriverCache} (ref : TagRef) (inv : CacheInv cache) :
    Done band cache (.del ref) := by
  cases found : cache.table.find (keyOf ref.group ref.tag) with
  | none =>
    refine ⟨cache, none, ?_, inv, rfl, ?_⟩
    · simp [cacheStep, neuDriverCacheDel, toKey_ref, found]
    · exact (Function.update_eq_self_iff.2 (by rw [mapOf_ref found]; rfl)).symm
  | some elem =>
    -- Only the block of the entry itself is freed.
    obtain ⟨heap, released, frame⟩ : ∃ heap, releasePtr cache.heap elem.value = some heap ∧
        ∀ address, ¬ Owns elem address → address ≠ 0 →
          heap.find address = cache.heap.find address := by
      unfold releasePtr
      by_cases pointer : elem.value.type = .ptr
      · by_cases null : elem.value.value.ptrPtr = 0
        · exact ⟨cache.heap, by rw [if_pos pointer, freePtr, if_pos null], fun _ _ _ => rfl⟩
        · obtain ⟨block, live, _⟩ := (inv.stored _ elem found).live _ ⟨pointer, rfl, null⟩
          have freed : freePtr cache.heap elem.value.value.ptrPtr =
              some (cache.heap.erase elem.value.value.ptrPtr) := by
            rw [freePtr, if_neg null, live]
            rfl
          refine ⟨_, by rw [if_pos pointer, freed], fun address notOwned nonnull => ?_⟩
          exact freePtr_frame freed fun same => notOwned ⟨pointer, same.symm, nonnull⟩
      · exact ⟨cache.heap, if_neg pointer, fun _ _ _ => rfl⟩
    have others : ∀ key other, key ≠ keyOf ref.group ref.tag →
        cache.table.find key = some other → ∀ address, Owns other address →
          heap.find address = cache.heap.find address := by
      intro key other away foundOther address owns
      refine frame address (fun owns' => ?_) owns.2.2
      exact away (inv.owner key _ other elem address foundOther found owns owns')
    refine ⟨⟨cache.table.erase (keyOf ref.group ref.tag), heap⟩, none, ?_, ⟨?_, ?_⟩, rfl, ?_⟩
    · simp [cacheStep, neuDriverCacheDel, toKey_ref, found, released]
    · intro key other foundOther
      rw [Table.find_erase] at foundOther
      split at foundOther
      · cases foundOther
      · next away => exact (inv.stored key other foundOther).frame (others key other away foundOther)
    · intro key key' other other' address foundOther foundOther' owns owns'
      rw [Table.find_erase] at foundOther foundOther'
      split at foundOther
      · cases foundOther
      · split at foundOther'
        · cases foundOther'
        · exact inv.owner key key' other other' address foundOther foundOther' owns owns'
    · funext names
      unfold mapOf
      rw [Table.find_erase]
      by_cases here : names = ref.names
      · subst here
        simp [TagRef.names]
      · have away : keyOf names.1 names.2 ≠ keyOf ref.group ref.tag :=
          fun same => here (keyOf_injective same)
        rw [if_neg away, Function.update_of_ne here]
        cases foundOther : cache.table.find (keyOf names.1 names.2) with
        | none => rfl
        | some other =>
          rw [Option.map_some, Option.map_some, entryOf_frame (inv.stored _ other foundOther)
            (others _ other away foundOther)]

theorem cacheStep_done {cache : NeuDriverCache} {op : CacheOp} (inv : CacheInv cache)
    (safe : CacheSafe cache op) : Done band cache op := by
  cases op with
  | add ref v => exact add_done band inv safe
  | update ref timestamp v metas change fresh => exact update_done band inv safe
  | get ref => exact get_done band inv
  | metaGet ref nMeta => exact metaGet_done band ref nMeta inv
  | getChanged ref => exact getChanged_done band inv
  | metaGetChanged ref nMeta => exact metaGetChanged_done band inv
  | del ref => exact del_done band ref inv

variable {band}

theorem effect_frame {cache : NeuDriverCache} {op : CacheOp} {m' : TagMap} {seen : Option View}
    {ref : TagRef} (effect : Effect band cache op m' seen) (away : op.ref ≠ ref) :
    m' ref.names = mapOf cache ref.names := by
  have apart : ref.names ≠ op.ref.names := fun same => away (names_injective same).symm
  have taken {view : Entry → View} (takes : TakesChanged (mapOf cache) op.ref.names view m' seen) :
      m' ref.names = mapOf cache ref.names := by
    unfold TakesChanged at takes
    split at takes
    · rw [takes.2]
    · rw [takes.2, Function.update_of_ne apart]
  cases op with
  | add at' v => rw [effect.2]; exact Function.update_of_ne apart _ _
  | update at' timestamp v metas change fresh =>
    have mapped := effect.2
    split at mapped
    · rw [mapped]
    · obtain ⟨_, _, mapped⟩ := mapped
      rw [mapped]
      exact Function.update_of_ne apart _ _
  | get at' => rw [effect.2]
  | metaGet at' nMeta => rw [effect.2]
  | getChanged at' => exact taken effect
  | metaGetChanged at' nMeta => exact taken effect
  | del at' => rw [effect.2]; exact Function.update_of_ne apart _ _

theorem cacheNew_inv : CacheInv neuDriverCacheNew where
  stored _ _ found := by cases found
  owner _ _ _ _ _ found := by cases found

end Cpm
