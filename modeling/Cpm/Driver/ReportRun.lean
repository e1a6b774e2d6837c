import Cpm.Driver.CacheChange
import Cpm.Driver.ReportMap

/-! Runs of cache calls and report timers. Beside the cache runs the history of one tag: what was
stored last, whether a change of it waits for a timer, and whether an update came at all since the
last one. -/
namespace Cpm

open Lib Lib.Run

inductive ReportOp where
  | cache (op : CacheOp)
  | tick (timer : ReportTimer) (timestamp : Int)

def reportStep (fl : FloatOps) (cache : NeuDriverCache) :
    ReportOp → Option (NeuDriverCache × List NeuRespTagValueMeta)
  | .cache op => (cacheStep fl.band cache op).map fun r => (r.1, [])
  | .tick timer timestamp => (timer.fire fl cache timestamp).map fun r => (r.1.cache, told r.2)

def ReportSafe (cache : NeuDriverCache) : ReportOp → Prop
  | .cache op => CacheSafe cache op
  | .tick _ _ => True

/-- Another type or another value: numbers with a precision by their distance, pointer values by
their bytes. An error always counts. -/
def counts (band : DeadBand) (old v : CallerValue) : Bool :=
  old.value.type ≠ v.value.type ||
    match v.value.type with
    | .error => true
    | .float =>
      if old.value.precision = 0 then Ieee.binary32.ne old.value.value.f32 v.value.value.f32
      else band.float old.value.precision old.value.value.f32 v.value.value.f32
    | .double =>
      if old.value.precision = 0 then Ieee.binary64.ne old.value.value.d64 v.value.value.d64
      else band.double old.value.precision old.value.value.d64 v.value.value.d64
    | .ptr => old.value.value.ptrLength ≠ v.value.value.ptrLength || old.data ≠ v.data
    | _ => old.payload ≠ v.payload

structure Ledger where
  latest : Option CallerValue
  due : Bool
  fresh : Bool

namespace Ledger

def empty : Ledger := ⟨none, false, false⟩

def failed (l : Ledger) : Bool := l.latest.any fun v => v.value.type = .error

/-- A report settles what was due, an error apart. -/
def taken (l : Ledger) : Ledger := { l with due := l.due && l.failed, fresh := l.fresh && l.failed }

/-- Whether a change still waits after an update without one is left open for a FLOAT or DOUBLE
without precision. -/
def updated (band : DeadBand) (l : Ledger) (v : CallerValue) (change : Bool) : Ledger :=
  match l.latest with
  | none => l
  | some old =>
    let unrounded := (v.value.type = .float || v.value.type = .double) && old.value.precision = 0
    ⟨some (v.withPrecision old.value.precision), change || counts band old v || l.due && !unrounded, true⟩

end Ledger

def covers (ref : TagRef) (timer : ReportTimer) : Bool :=
  timer.running && timer.name.val = ref.group &&
    timer.tags.any fun tag => subscribed tag && tag.name = ref.tag

def Ledger.next (band : DeadBand) (ref : TagRef) (l : Ledger) : ReportOp → Ledger
  | .cache (.add at' v) => if at' = ref then ⟨some v, false, false⟩ else l
  | .cache (.update at' _ v _ change _) => if at' = ref then l.updated band v change else l
  | .cache (.getChanged at') | .cache (.metaGetChanged at' _) => if at' = ref then l.taken else l
  | .cache (.del at') => if at' = ref then .empty else l
  | .cache (.get _) | .cache (.metaGet _ _) => l
  | .tick timer _ => if covers ref timer then l.taken else l

abbrev Reported := NeuDriverCache × Ledger

def ledgerStep (fl : FloatOps) (ref : TagRef) (s : Reported) (op : ReportOp) : Option Reported :=
  (reportStep fl s.1 op).map fun r => (r.1, s.2.next fl.band ref op)

/-- The invariant: the map has the value stored last, and the mark stands between what is due and
what was updated. -/
structure Ledger.Keeps (ref : TagRef) (s : Reported) : Prop where
  inv : CacheInv s.1
  latest : (mapOf s.1 ref.names).map (fun e => (e.type, e.payload, e.precision)) =
    s.2.latest.map fun v => (v.value.type, v.payload, v.value.precision)
  marked : s.2.due = true → ∃ e, mapOf s.1 ref.names = some e ∧ e.changed = true
  fresh : ∀ e, mapOf s.1 ref.names = some e → e.changed = true → s.2.fresh = true

theorem counts_marks {band : DeadBand} {heap : Heap} {elem : Elem} {old v : CallerValue}
    {changed : Bool}
    (stored : Stored heap elem) (means : Means heap elem old)
    (compared : compareChanged band heap elem v.value v.data = some changed)
    (counted : counts band old v = true) : changed = true := by
  -- What is left to the comparison of values without a dead band.
  have plain (differ : differs old v = true) (kept : ¬ Retyped old v) : changed = true :=
    compareChanged_marks stored means compared differ fun _ => kept
  unfold compareChanged at compared
  by_cases other : elem.value.type ≠ v.value.type
  · rw [if_pos other] at compared
    exact (Option.some.inj compared).symm
  have type : elem.value.type = v.value.type := not_not.1 other
  have same : old.value.type = v.value.type := means.type.symm.trans type
  have content := means.payload
  rw [entryOf, CallerValue.payload, ← means.type, type] at content
  simp only [counts, same, ne_eq, not_true_eq_false, decide_false, Bool.false_or] at counted
  simp only [if_neg other] at compared
  cases is : v.value.type with
  | error =>
    simp only [is] at compared
    exact (Option.some.inj compared).symm
  | float =>
    simp only [is] at counted content compared
    rw [means.precision, f32_of_payload content] at compared
    split at counted
    · next exact =>
      rw [if_pos exact] at compared
      exact (Option.some.inj compared).symm.trans counted
    · next rounded =>
      rw [if_neg rounded, counted, Bool.or_true] at compared
      exact (Option.some.inj compared).symm
  | double =>
    simp only [is] at counted content compared
    rw [means.precision, d64_of_payload content] at compared
    split at counted
    · next exact =>
      rw [if_pos exact] at compared
      exact (Option.some.inj compared).symm.trans counted
    · next rounded =>
      rw [if_neg rounded, counted, Bool.or_true] at compared
      exact (Option.some.inj compared).symm
  | ptr =>
    simp only [is, Bool.or_eq_true, decide_eq_true_eq] at counted
    have apart : old.payload ≠ v.payload := by
      intro equal
      rw [CallerValue.payload, CallerValue.payload, same, is] at equal
      obtain ⟨length, data⟩ := ptr_of_payload equal
      exact counted.elim (fun lengths => lengths length) fun bytes => bytes data
    refine plain ?_ fun again => ?_
    · simp [differs, same, is, apart]
    · obtain ⟨_, _, length, data, _⟩ := again
      exact counted.elim (fun lengths => lengths length) fun bytes => bytes data
  | unlisted other =>
    -- Such a value has no payload that could differ.
    rw [is] at same
    simp [is, CallerValue.payload, same] at counted
  | _ =>
    refine plain ?_ fun again => absurd (is.symm.trans again.2.1) (by decide)
    simpa [differs, same, is] using counted

section
variable {ref : TagRef} {s : Reported} {cache' : NeuDriverCache}

theorem keeps_same (keeps : Ledger.Keeps ref s) (kept : CacheInv cache')
    (same : mapOf cache' ref.names = mapOf s.1 ref.names) : Ledger.Keeps ref (cache', s.2) :=
  ⟨kept, same ▸ keeps.latest, same ▸ keeps.marked, same ▸ keeps.fresh⟩

theorem keeps_failed (keeps : Ledger.Keeps ref s) {e : Entry}
    (found : mapOf s.1 ref.names = some e) : s.2.failed = decide (e.type = .error) := by
  have latest := keeps.latest
  rw [found, Option.map_some] at latest
  obtain ⟨v, stored, same⟩ := Option.map_eq_some_iff.1 latest.symm
  injection same with type
  simp [Ledger.failed, stored, type]

/-- A reader of changes leaves an error marked and nothing else. -/
theorem keeps_taken (keeps : Ledger.Keeps ref s) (kept : CacheInv cache')
    (taken : mapOf cache' ref.names = (mapOf s.1 ref.names).map Entry.reported) :
    Ledger.Keeps ref (cache', s.2.taken) := by
  refine ⟨kept, ?_, fun due => ?_, fun e found marked => ?_⟩
  · rw [taken, Option.map_map]
    exact keeps.latest
  · obtain ⟨waits, failed⟩ := Bool.and_eq_true_iff.1 due
    obtain ⟨e, found, marked⟩ := keeps.marked waits
    refine ⟨e.reported, by rw [taken, found, Option.map_some], ?_⟩
    rw [Entry.reported, marked, Bool.true_and, ← keeps_failed keeps found]
    exact failed
  · rw [taken] at found
    obtain ⟨before, here, rfl⟩ := Option.map_eq_some_iff.1 found
    obtain ⟨was, error⟩ := Bool.and_eq_true_iff.1 marked
    rw [← keeps_failed keeps here] at error
    exact Bool.and_eq_true_iff.2 ⟨keeps.fresh before here was, error⟩

theorem takes_map {m m' : TagMap} {names : CStr × CStr} {view : Entry → View} {seen : Option View}
    (takes : TakesChanged m names view m' seen) : m' names = (m names).map Entry.reported := by
  unfold TakesChanged at takes
  split at takes
  · next idle =>
    rw [takes.2]
    cases here : m names with
    | none => rfl
    | some e =>
      have unmarked : e.changed = false := by simpa [here, Option.filter_some] using idle
      rw [Option.map_some, Entry.reported_unmarked unmarked]
  · next e marked =>
    rw [takes.2, Function.update_self, (Option.filter_eq_some_iff.1 marked).1, Option.map_some]

theorem keeps_update {fl : FloatOps} {timestamp : Int} {v : CallerValue} {metas : TagMetas}
    {change : Bool}
    {fresh : Nat} {seen : Option View} (keeps : Ledger.Keeps ref s) (kept : CacheInv cache')
    (effect : Effect fl.band s.1 (.update ref timestamp v metas change fresh) (mapOf cache') seen) :
    Ledger.Keeps ref (cache', s.2.updated fl.band v change) := by
  have latest := keeps.latest
  obtain ⟨_, mapped⟩ := effect
  cases found : s.1.table.find (keyOf ref.group ref.tag) with
  | none =>
    rw [found] at mapped
    rw [mapOf_ref found, Option.map_none, Option.map_none] at latest
    have empty : s.2.latest = none := Option.map_eq_none_iff.1 latest.symm
    have unchanged : s.2.updated fl.band v change = s.2 := by simp [Ledger.updated, empty]
    rw [unchanged]
    exact keeps_same keeps kept (congrFun mapped _)
  | some elem =>
    simp only [found] at mapped
    obtain ⟨changed, compared, mapped⟩ := mapped
    obtain ⟨old, stored, means⟩ := means_latest found latest
    have readable := keeps.inv.stored _ elem found
    have here : mapOf cache' ref.names = some ⟨v.value.type, v.payload, elem.value.precision,
        timestamp, metasOf metas.val, changed || change⟩ := by rw [mapped, Function.update_self]
    simp only [Ledger.updated, stored]
    refine ⟨kept, ?_, fun due => ⟨_, here, ?_⟩, fun _ _ _ => rfl⟩
    · rw [here]
      simp only [Option.map_some, Option.some.injEq, Prod.mk.injEq]
      exact ⟨rfl, rfl, means.precision⟩
    · -- Either the update counts, or the mark that was there stays.
      simp only [Bool.or_eq_true, Bool.and_eq_true] at due ⊢
      obtain (forced | counted) | ⟨waits, rounded⟩ := due
      · exact .inr forced
      · exact .inl (counts_marks readable means compared counted)
      · obtain ⟨e, before, marked⟩ := keeps.marked waits
        rw [mapOf_ref found] at before
        cases before
        obtain ⟨_, again, stays⟩ := compareChanged_keeps fl.band readable v
        cases compared.symm.trans again
        refine .inl (stays marked fun repeats => ?_)
        have zero : old.value.precision = 0 := means.precision ▸ repeats.2.1
        have float : v.value.type = .float ∨ v.value.type = .double :=
          repeats.2.2.elim (fun again => .inl again.1) fun again => .inr again.1
        rcases float with float | float
        · simp [zero, float] at rounded
        · simp [zero, float] at rounded

end

theorem covers_iff {ref : TagRef} {timer : ReportTimer} (running : timer.running = true) :
    covers ref timer = true ↔ ref.names.1 = timer.name.val ∧
      ∃ tag ∈ timer.tags.filter subscribed, tag.name = ref.names.2 := by
  simp only [covers, running, TagRef.names, Bool.true_and, Bool.and_eq_true, decide_eq_true_eq,
    List.any_eq_true, List.mem_filter, and_assoc]
  exact and_congr_left fun _ => eq_comm

/-- A tick is a delivery to the tag if the timer covers it. -/
theorem keeps_tick (fl : FloatOps) {ref : TagRef} {s : Reported} {cache' : NeuDriverCache}
    (timer : ReportTimer) (timestamp : Int) (keeps : Ledger.Keeps ref s) (kept : CacheInv cache')
    (mapped : mapOf cache' =
      if timer.running then takenMap timer.name.val timer.tags (mapOf s.1) else mapOf s.1) :
    Ledger.Keeps ref (cache', s.2.next fl.band ref (.tick timer timestamp)) := by
  have here := congrFun mapped ref.names
  by_cases covered : covers ref timer = true
  · have running : timer.running = true :=
      (Bool.and_eq_true_iff.1 (Bool.and_eq_true_iff.1 covered).1).1
    have next : s.2.next fl.band ref (.tick timer timestamp) = s.2.taken := if_pos covered
    rw [if_pos running, takenMap, onTags, if_pos ((covers_iff running).1 covered)] at here
    rw [next]
    exact keeps_taken keeps kept here
  · have next : s.2.next fl.band ref (.tick timer timestamp) = s.2 := if_neg covered
    rw [next]
    by_cases running : timer.running = true
    · rw [if_pos running, takenMap, onTags,
        if_neg fun inside => covered ((covers_iff running).2 inside)] at here
      exact keeps_same keeps kept here
    · rw [if_neg running] at here
      exact keeps_same keeps kept here

theorem keeps_step (fl : FloatOps) {ref : TagRef} {s : Reported} {op : ReportOp}
    (keeps : Ledger.Keeps ref s) (safe : ReportSafe s.1 op) :
    ∃ s', ledgerStep fl ref s op = some s' ∧ Ledger.Keeps ref s' := by
  cases op with
  | tick timer timestamp =>
    obtain ⟨cache', fired, kept, mapped⟩ := timer_fires fl timer keeps.inv timestamp
    exact ⟨(cache', s.2.next fl.band ref (.tick timer timestamp)),
      by rw [ledgerStep, reportStep, fired]; rfl, keeps_tick fl timer timestamp keeps kept mapped⟩
  | cache op =>
    obtain ⟨cache', seen, stepped, kept, effect⟩ := cacheStep_done fl.band keeps.inv safe
    refine ⟨(cache', s.2.next fl.band ref (.cache op)), by simp [ledgerStep, reportStep, stepped], ?_⟩
    by_cases away : op.ref ≠ ref
    · have untouched : s.2.next fl.band ref (.cache op) = s.2 := by
        cases op <;> simp_all [Ledger.next, CacheOp.ref]
      rw [untouched]
      exact keeps_same keeps kept (effect_frame effect away)
    obtain rfl : op.ref = ref := not_not.1 away
    cases op with
    | add at' v =>
      have entered : mapOf cache' at'.names = some ⟨v.value.type, v.payload, v.value.precision, 0,
          ((mapOf s.1 at'.names).map Entry.metas).getD noMetas, false⟩ := by
        rw [effect.2, Function.update_self]
      have next : s.2.next fl.band at' (.cache (.add at' v)) = ⟨some v, false, false⟩ := if_pos rfl
      simp only [CacheOp.ref, next]
      refine ⟨kept, by rw [entered]; rfl, fun due => (by cases due), fun e found marked => ?_⟩
      rw [entered] at found
      cases found
      cases marked
    | update at' timestamp v metas change fresh =>
      have next : s.2.next fl.band at' (.cache (.update at' timestamp v metas change fresh)) =
          s.2.updated fl.band v change := if_pos rfl
      simp only [CacheOp.ref, next]
      exact keeps_update keeps kept effect
    | get at' => exact keeps_same keeps kept (congrFun effect.2 _)
    | metaGet at' nMeta => exact keeps_same keeps kept (congrFun effect.2 _)
    | getChanged at' =>
      have next : s.2.next fl.band at' (.cache (.getChanged at')) = s.2.taken := if_pos rfl
      simp only [CacheOp.ref, next]
      exact keeps_taken keeps kept (takes_map effect)
    | metaGetChanged at' nMeta =>
      have next : s.2.next fl.band at' (.cache (.metaGetChanged at' nMeta)) = s.2.taken := if_pos rfl
      simp only [CacheOp.ref, next]
      exact keeps_taken keeps kept (takes_map effect)
    | del at' =>
      have gone : mapOf cache' at'.names = none := by rw [effect.2, Function.update_self]
      have next : s.2.next fl.band at' (.cache (.del at')) = .empty := if_pos rfl
      simp only [CacheOp.ref, next]
      refine ⟨kept, by rw [gone]; rfl, fun due => (by cases due), fun e found => ?_⟩
      rw [gone] at found
      cases found

theorem reportAnswer_tag {fl : FloatOps} {timestamp timeout : Int} {tag : NeuDatatag}
    {e : Option Entry} {data : NeuRespTagValueMeta}
    (told : reportAnswer fl timestamp timeout tag e = some data) : data.tag = tag.name := by
  cases e with
  | none =>
    rw [reportAnswer] at told
    split at told
    · cases told
    · cases told
      rfl
  | some e =>
    rw [reportAnswer] at told
    split at told
    · cases told
    · cases told
      rfl

theorem filter_name {tags : List NeuDatatag} (tell : NeuDatatag → Option NeuRespTagValueMeta)
    (own : ∀ tag data, tell tag = some data → data.tag = tag.name)
    (distinct : (tags.map NeuDatatag.name).Nodup) {tag : NeuDatatag} (inside : tag ∈ tags) :
    ((tags.filterMap tell).filter fun data => data.tag = tag.name) = (tell tag).toList := by
  -- Tags of other names contribute nothing.
  have none (others : List NeuDatatag) (away : tag.name ∉ others.map NeuDatatag.name) :
      ((others.filterMap tell).filter fun data => data.tag = tag.name) = [] := by
    refine List.filter_eq_nil_iff.2 fun data member same => ?_
    obtain ⟨other, here, told⟩ := List.mem_filterMap.1 member
    refine away (List.mem_map.2 ⟨other, here, ?_⟩)
    rw [← own other data told]
    exact of_decide_eq_true same
  induction tags with
  | nil => cases inside
  | cons first rest ih =>
    obtain ⟨fresh, others⟩ := List.nodup_cons.1 distinct
    rcases List.mem_cons.1 inside with same | later
    · subst same
      cases told : tell tag with
      | none => rw [List.filterMap_cons_none told, none rest fresh, Option.toList_none]
      | some data =>
        rw [List.filterMap_cons_some told, List.filter_cons_of_pos, none rest fresh, Option.toList_some]
        exact decide_eq_true (own tag data told)
    · have apart : first.name ≠ tag.name := fun same =>
        fresh (same ▸ List.mem_map_of_mem later)
      cases told : tell first with
      | none => rw [List.filterMap_cons_none told, ih others later]
      | some data =>
        rw [List.filterMap_cons_some told, List.filter_cons_of_neg, ih others later]
        rw [own first data told]
        simpa using apart

/-- A report has the entry of a tag under its name, and no other. -/
theorem report_named (fl : FloatOps) {cache : NeuDriverCache} (inv : CacheInv cache) {group : CStr}
    (named : group.strlen < NEU_GROUP_NAME_LEN) {tags : List NeuDatatag}
    (short : ∀ tag ∈ tags, tag.name.strlen < NEU_TAG_NAME_LEN)
    (distinct : (tags.map NeuDatatag.name).Nodup) {tag : NeuDatatag} (inside : tag ∈ tags)
    (timestamp timeout : Int) : ∃ cache' datas,
      readReportGroup fl timestamp timeout group cache tags = some (cache', datas) ∧
        (datas.filter fun data => data.tag = tag.name) =
          (reportAnswer fl timestamp timeout tag (mapOf cache (group, tag.name))).toList := by
  obtain ⟨cache', ran, _, _⟩ := readReportGroup_map fl timestamp timeout named short
    (subscribed_distinct distinct) inv
  refine ⟨cache', _, ran, ?_⟩
  exact filter_name
    (fun tag => reportAnswer fl timestamp timeout tag (mapOf cache (group, tag.name)))
    (fun _ _ told => reportAnswer_tag told) distinct inside

theorem read_named (fl : FloatOps) {driver : NeuAdapterDriver} (orderly : Orderly driver)
    (running : driver.adapter.state = .running) {name : CStr} {g : GroupT}
    (found : findGroup driver name = some g) {tag : NeuDatatag}
    (inside : tag ∈ neuGroupGetReadTag g.group) (cmdDriver : CStr) (timestamp : Int) : ∃ n answers,
      neuAdapterDriverReadGroup fl driver cmdDriver name timestamp =
          some (.group cmdDriver name n answers) ∧
        (answers.filter fun answered => answered.tag = tag.name) =
          [answer fl timestamp (readTimeout g.group) tag (mapOf driver.cache (name, tag.name))] := by
  have read := readGroup_map fl orderly.toFitting running found cmdDriver timestamp
  have one := filter_name
    (fun tag => some (answer fl timestamp (readTimeout g.group) tag
      (mapOf driver.cache (name, tag.name))))
    (fun tag data told => Option.some.inj told ▸ answer_tag fl timestamp _ tag _)
    (orderly.readTags found).2.2 inside
  rw [List.filterMap_eq_map'] at one
  exact ⟨_, _, read, one⟩

/-- A report goes through its tags in order: a subscribed tag is told of if its entry is marked,
any other tag always. -/
def Selects (fl : FloatOps) (cache : NeuDriverCache) (group : CStr) (tags : List NeuDatatag)
    (timestamp timeout : Int) : Prop :=
  ∃ cache' datas, readReportGroup fl timestamp timeout group cache tags = some (cache', datas) ∧
    datas = (tags.filterMap fun tag =>
      reportAnswer fl timestamp timeout tag (mapOf cache (group, tag.name))) ∧
    datas.length ≤ tags.length ∧ mapOf cache' = takenMap group tags (mapOf cache)

/-- A running timer sends that, with a count of 16 bits. -/
def SendsReport (fl : FloatOps) (timer : ReportTimer) (cache : NeuDriverCache)
    (timestamp : Int) : Prop :=
  ∃ cache' datas, readReportGroup fl timestamp (readTimeout timer.group.group) timer.name.val cache
      timer.tags = some (cache', datas) ∧
    timer.fire fl cache timestamp =
      some ({ timer.driver with cache := cache' }, timer.message datas) ∧
    (datas.length < 2 ^ 16 → told (timer.message datas) = datas)

/-- A timer of the tag's group tells of the subscribed tag once, with what was stored last, if a
change is due and the count holds all entries, and not at all if no update came. -/
def TellsDue (fl : FloatOps) (ref : TagRef) (s : Reported) (timer : ReportTimer) (tag : NeuDatatag)
    (timestamp : Int) : Prop :=
  ∃ driver' sent, timer.fire fl s.1 timestamp = some (driver', sent) ∧
    (s.2.due = true → (timer.entries fl s.1 timestamp).length < 2 ^ 16 →
      ∃ v e data, s.2.latest = some v ∧ mapOf s.1 ref.names = some e ∧
        e.type = v.value.type ∧ e.payload = v.payload ∧
        reportAnswer fl timestamp (readTimeout timer.group.group) tag (some e) = some data ∧
        ((told sent).filter fun data => data.tag = ref.tag) = [data]) ∧
    (s.2.fresh = false → ((told sent).filter fun data => data.tag = ref.tag) = [])

theorem timer_sends (fl : FloatOps) {timer : ReportTimer} (running : timer.running = true)
    {cache : NeuDriverCache} (inv : CacheInv cache) (timestamp : Int) :
    SendsReport fl timer cache timestamp := by
  obtain ⟨cache', ran, _, _⟩ := readReportGroup_map fl timestamp (readTimeout timer.group.group)
    timer.name.property timer.short (subscribed_distinct timer.distinct) inv
  exact ⟨cache', _, ran, fire_running fl running ran, told_message timer⟩

theorem keeps_tells (fl : FloatOps) {ref : TagRef} {s : Reported} (keeps : Ledger.Keeps ref s)
    {timer : ReportTimer} (running : timer.running = true) (own : timer.name.val = ref.group)
    {tag : NeuDatatag} (inside : tag ∈ timer.tags) (is : subscribed tag = true)
    (name : tag.name = ref.tag) (timestamp : Int) : TellsDue fl ref s timer tag timestamp := by
  obtain ⟨cache', fired, _, _⟩ := timer_fires fl timer keeps.inv timestamp
  rw [if_pos running] at fired
  -- What there is to tell under the tag's name.
  have one : ((timer.entries fl s.1 timestamp).filter fun data => data.tag = ref.tag) =
      (reportAnswer fl timestamp (readTimeout timer.group.group) tag (mapOf s.1 ref.names)).toList := by
    have named : (timer.name.val, tag.name) = ref.names := by rw [own, name, TagRef.names]
    rw [← name, ← named]
    exact filter_name (fun tag => reportAnswer fl timestamp (readTimeout timer.group.group) tag
      (mapOf s.1 (timer.name.val, tag.name))) (fun _ _ told => reportAnswer_tag told) timer.distinct
      inside
  refine ⟨_, _, fired, fun due few => ?_, fun idle => ?_⟩
  · obtain ⟨e, found, marked⟩ := keeps.marked due
    have latest := keeps.latest
    rw [found, Option.map_some] at latest
    obtain ⟨v, stored, same⟩ := Option.map_eq_some_iff.1 latest.symm
    injection same with type rest
    injection rest with content
    rw [told_message timer few, one, found]
    simp [stored, type, content, reportAnswer, marked]
  · have none : reportAnswer fl timestamp (readTimeout timer.group.group) tag
        (mapOf s.1 ref.names) = none := by
      cases found : mapOf s.1 ref.names with
      | none => simp [reportAnswer, is]
      | some e =>
        have unmarked : e.changed = false := by
          by_contra marked
          have fresh := keeps.fresh e found (by simpa using marked)
          rw [idle] at fresh
          cases fresh
        simp [reportAnswer, is, unmarked]
    rw [none, Option.toList_none] at one
    exact List.eq_nil_of_sublist_nil (one ▸ (told_among timer _).filter _)

def ledgerNew : Reported := (neuDriverCacheNew, .empty)

theorem ledgerNew_keeps (ref : TagRef) : Ledger.Keeps ref ledgerNew where
  inv := cacheNew_inv
  latest := rfl
  marked due := by cases due
  fresh _ found := by cases found

theorem report_selection (fl : FloatOps) {cache : NeuDriverCache} (inv : CacheInv cache)
    (group : GroupName) {tags : List NeuDatatag}
    (short : ∀ tag ∈ tags, tag.name.strlen < NEU_TAG_NAME_LEN)
    (distinct : (subscribedNames tags).Nodup) (timestamp timeout : Int) (ref : TagRef)
    (ops : List ReportOp)
    (safe : Along (ledgerStep fl ref) (fun s op => ReportSafe s.1 op) ledgerNew ops) :
    Selects fl cache group.val tags timestamp timeout ∧
      (∀ timer : ReportTimer, timer.running = true → SendsReport fl timer cache timestamp) ∧
      ∃ s, ops.foldlM (ledgerStep fl ref) ledgerNew = some s ∧
        ∀ (timer : ReportTimer) (tag : NeuDatatag) (timestamp : Int), timer.running = true →
          timer.name.val = ref.group → tag ∈ timer.tags → subscribed tag = true →
            tag.name = ref.tag → TellsDue fl ref s timer tag timestamp := by
  refine ⟨?_, fun timer running => timer_sends fl running inv timestamp, ?_⟩
  · obtain ⟨cache', ran, _, mapped⟩ := readReportGroup_map fl timestamp timeout group.property short
      distinct inv
    exact ⟨cache', _, ran, rfl, List.length_filterMap_le _ _, mapped⟩
  · have progress (s : Reported) (op : ReportOp) (keeps : Ledger.Keeps ref s)
        (met : ReportSafe s.1 op) := keeps_step fl keeps met
    obtain ⟨s, ran, keeps⟩ := ends_of_step progress (ledgerNew_keeps ref) safe
    exact ⟨s, ran, fun timer tag timestamp running own inside is name =>
      keeps_tells fl keeps running own inside is name timestamp⟩

def watchTag : NeuDatatag :=
  ⟨groupTag.tag, .empty, NEU_ATTRIBUTE_SUBSCRIBE, .int8, 0, 0, .empty, .zero, none⟩

def watchName : GroupName := ⟨groupTag.group, groupTag.groupFits⟩

def watchGroup : GroupT :=
  let group := newGroup 0 watchName.val 1000
  { group with group := (neuGroupAddTag group.group watchTag 1).1 }

def watchTimer : ReportTimer where
  driver := newDriver.setGroup watchName.val watchGroup
  name := watchName
  group := watchGroup
  found := by rw [findGroup_setGroup, if_pos rfl]
  short := by decide
  distinct := by decide

def int8Value (n : Nat) : CallerValue := .plain .int8 (.ofU32 n) int8_plain

def updateInt8 (timestamp : Int) (n : Nat) : ReportOp :=
  .cache (.update groupTag timestamp (int8Value n) ⟨[], noMetas_fit⟩ false 0)

theorem report_selection_seven :
    Selects noFloats neuDriverCacheNew groupA.val [readTemp.tag, watchTag] 9 60 ∧
      (∀ timer : ReportTimer, timer.running = true → SendsReport noFloats timer neuDriverCacheNew 9) ∧
      ∃ s, [.cache (.add groupTag (int8Value 0)), updateInt8 5 7, .tick watchTimer 6,
            updateInt8 7 9].foldlM (ledgerStep noFloats groupTag) ledgerNew = some s ∧
        ∀ (timer : ReportTimer) (tag : NeuDatatag) (timestamp : Int), timer.running = true →
          timer.name.val = groupTag.group → tag ∈ timer.tags → subscribed tag = true →
            tag.name = groupTag.tag → TellsDue noFloats groupTag s timer tag timestamp := by
  refine report_selection noFloats cacheNew_inv groupA (by decide) (by decide) 9 60 groupTag _ ?_
  exact ⟨fun pointer => absurd pointer (by decide), fun _ _ =>
    ⟨fun _ _ pointer => absurd pointer (by decide), fun _ _ =>
      ⟨trivial, fun _ _ => ⟨fun _ _ pointer => absurd pointer (by decide), fun _ _ => trivial⟩⟩⟩⟩

/-- A tag that stands twice in the list is reported once, and of two changes before a tick only
the second is ever reported. -/
theorem report_merged :
    (∃ cache, ([CacheOp.add groupTag (int8Value 0), .update groupTag 5 (int8Value 7)
        ⟨[], noMetas_fit⟩ false 0].foldlM (fun cache op => (cacheStep exactBand cache op).map Prod.fst)
        neuDriverCacheNew) = some cache ∧
      (mapOf cache groupTag.names).any Entry.changed = true ∧
      (readReportGroup noFloats 9 0 groupTag.group cache [watchTag, watchTag]).map
        (fun r => r.2.length) = some 1) ∧
    (observe (reportStep noFloats) neuDriverCacheNew [.cache (.add groupTag (int8Value 0)),
        updateInt8 5 7, updateInt8 6 9, .tick watchTimer 7, .tick watchTimer 8]).map
      (fun r => r.2.flatten.map fun data => (data.value.type, data.value.value.signed 1)) =
        some [(.int8, 9)] := by
  refine ⟨?_, by decide +kernel⟩
  have ends : (([CacheOp.add groupTag (int8Value 0), .update groupTag 5 (int8Value 7)
      ⟨[], noMetas_fit⟩ false 0].foldlM (fun cache op => (cacheStep exactBand cache op).map Prod.fst)
      neuDriverCacheNew).map fun cache => ((mapOf cache groupTag.names).any Entry.changed,
        (readReportGroup noFloats 9 0 groupTag.group cache [watchTag, watchTag]).map
          fun r => r.2.length)) = some (true, some 1) := by decide +kernel
  obtain ⟨cache, ran, both⟩ := Option.map_eq_some_iff.1 ends
  obtain ⟨marked, once⟩ := Prod.mk.inj both
  exact ⟨cache, ran, marked, once⟩

end Cpm
