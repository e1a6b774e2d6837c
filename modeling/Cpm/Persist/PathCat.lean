import Cpm.Lib.Buffer
import Cpm.Persist.Counters
import Cpm.Persist.Schemas

/-! `path_cat` on its buffer, and exactly when it joins two paths. -/
namespace Cpm

open Lib Lib.Buffer

def catLoop (size : Nat) (src dst : List Char) (i : Nat) : Option (List Char × Nat) :=
  if i < size then
    match src with
    | [] => (write dst i ['\x00']).map fun dst => (dst, i)
    | c :: src => (write dst i [c]).bind fun dst => catLoop size src dst (i + 1)
  else some (dst, i)

/-- The separator is put behind a path that does not end with one. -/
def catSeparator (dst : List Char) (i size : Nat) : Option (List Char × Nat) :=
  if 0 < i && i < size then
    dst[i - 1]?.bind fun last =>
      if last ≠ '/' then (write dst i ['/']).map fun dst => (dst, i + 1) else some (dst, i)
  else some (dst, i)

def pathCatInto (dst : List Char) (len size : Nat) (src : CStr) : Option (List Char × Int) := do
  let (dst, i) ← catSeparator dst len size
  let src := if src.chars.head? = some '/' then src.chars.tail else src.chars
  let (dst, i) ← catLoop size src dst i
  let dst ← if i = size && 0 < i then write dst (i - 1) ['\x00'] else some dst
  return (dst, asInt i)

def catFront (front : List Char) : List Char :=
  if front ≠ [] ∧ front.getLast? ≠ some '/' then front ++ ['/'] else front

theorem pathCat_split (front src : List Char) :
    pathCat front src = catFront front ++ (if src.head? = some '/' then src.tail else src) := rfl

theorem catLoop_fits {size : Nat} {src done rest : List Char}
    (whole : (done ++ rest).length = size) (fits : src.length < rest.length) :
    catLoop size src (done ++ rest) done.length =
      some (done ++ (src ++ '\x00' :: rest.drop (src.length + 1)), done.length + src.length) := by
  induction src generalizing done rest with
  | nil =>
    obtain ⟨old, rest, rfl⟩ := List.exists_cons_of_length_pos fits
    have room : done.length < size := by
      rw [← whole, List.length_append]
      exact Nat.lt_add_of_pos_right fits
    have wrote := @write_append _ done [old] rest ['\x00'] rfl
    rw [List.singleton_append] at wrote
    rw [catLoop, if_pos room]
    simp [wrote]
  | cons c src ih =>
    obtain ⟨old, rest, rfl⟩ := List.exists_cons_of_length_pos (Nat.zero_lt_of_lt fits)
    have room : done.length < size := by
      rw [← whole, List.length_append, List.length_cons]
      omega
    have wrote := @write_append _ done [old] rest [c] rfl
    have further := @ih (done ++ [c]) rest (by simpa using whole) (Nat.lt_of_succ_lt_succ fits)
    rw [List.length_append, List.length_singleton] at further
    simp only [List.singleton_append] at wrote
    rw [catLoop, if_pos room]
    simp only [wrote, Option.bind_some]
    rw [List.append_assoc] at further
    simp only [List.singleton_append] at further
    rw [further]
    simp [Nat.add_assoc, Nat.add_comm 1]

theorem catLoop_full {size : Nat} {src done rest : List Char}
    (whole : (done ++ rest).length = size) (full : rest.length ≤ src.length) :
    catLoop size src (done ++ rest) done.length = some (done ++ src.take rest.length, size) := by
  induction src generalizing done rest with
  | nil =>
    obtain rfl := List.length_eq_zero_iff.mp (Nat.le_zero.mp full)
    rw [List.append_nil] at whole
    rw [catLoop, if_neg (by omega)]
    simp [whole]
  | cons c src ih =>
    cases rest with
    | nil =>
      rw [List.append_nil] at whole
      rw [catLoop, if_neg (by omega)]
      simp [whole]
    | cons old rest =>
      have room : done.length < size := by
        rw [← whole, List.length_append, List.length_cons]
        omega
      have wrote := @write_append _ done [old] rest [c] rfl
      have further := @ih (done ++ [c]) rest (by simpa using whole) (Nat.le_of_succ_le_succ full)
      rw [List.length_append, List.length_singleton, List.append_assoc] at further
      simp only [List.singleton_append] at wrote further
      rw [catLoop, if_pos room]
      simp only [wrote, Option.bind_some]
      rw [further]
      simp

theorem catSeparator_full (front : List Char) :
    catSeparator front front.length front.length = some (front, front.length) := by
  rw [catSeparator, if_neg (by simp)]

theorem catSeparator_room {front rest : List Char} {old : Char} {size : Nat}
    (whole : (front ++ old :: rest).length = size) :
    catSeparator (front ++ old :: rest) front.length size =
      some (catFront front ++ (old :: rest).drop ((catFront front).length - front.length),
        (catFront front).length) := by
  subst whole
  rw [catSeparator, catFront]
  cases lasting : front.getLast? with
  | none =>
    obtain rfl := List.getLast?_eq_none_iff.mp lasting
    simp
  | some last =>
    have nonempty : front ≠ [] := by
      rintro rfl
      cases lasting
    have positive := List.length_pos_iff.mpr nonempty
    have at' : (front ++ old :: rest)[front.length - 1]? = some last := by
      rw [List.getElem?_append_left (by omega), ← lasting, List.getLast?_eq_getElem?]
    have wrote := @write_append _ front [old] rest ['/'] rfl
    rw [List.singleton_append] at wrote
    by_cases ends : last = '/'
    · simp [at', ends, positive]
    · simp [at', ends, positive, nonempty, wrote]

theorem write_last {text : List Char} {size : Nat} (positive : 0 < size) (full : size ≤ text.length)
    (c : Char) : write (text.take size) (size - 1) [c] = some (text.take (size - 1) ++ [c]) := by
  have room : size - 1 + [c].length ≤ (text.take size).length := by
    rw [List.length_take, List.length_singleton]
    omega
  rw [write_inside room, List.take_take, Nat.min_eq_left (Nat.sub_le size 1),
    List.drop_of_length_le (by rw [List.length_take, List.length_singleton]; omega),
    List.append_nil]

theorem catFront_length (front : List Char) :
    front.length ≤ (catFront front).length ∧ (catFront front).length ≤ front.length + 1 := by
  rw [catFront]
  split
  · simp
  · simp

theorem separator_whole (front rest : List Char) (some : rest ≠ []) :
    (catFront front ++ rest.drop ((catFront front).length - front.length)).length =
      (front ++ rest).length := by
  have lengths := catFront_length front
  have positive := List.length_pos_iff.mpr some
  simp only [List.length_append, List.length_drop]
  omega

section
variable {front rest : List Char} {size : Nat} (whole : (front ++ rest).length = size) (src : CStr)
include whole

theorem pathCatInto_fits (fits : (pathCat front src.chars).length < size) :
    pathCatInto (front ++ rest) front.length size src =
      some (pathCat front src.chars ++
          '\x00' :: (front ++ rest).drop ((pathCat front src.chars).length + 1),
        asInt (pathCat front src.chars).length) := by
  rw [pathCat_split] at fits ⊢
  rw [pathCatInto]
  generalize (if src.chars.head? = some '/' then src.chars.tail else src.chars) = tail at fits ⊢
  have lengths := catFront_length front
  rw [List.length_append] at fits
  have nonempty : rest ≠ [] := by
    rintro rfl
    rw [List.append_nil] at whole
    omega
  have moved := (separator_whole front rest nonempty).trans whole
  obtain ⟨old, rest, rfl⟩ := List.exists_cons_of_ne_nil nonempty
  have copied := @catLoop_fits _ tail _ _ moved (by
    rw [List.length_append] at moved
    omega)
  have behind : ((old :: rest).drop ((catFront front).length - front.length)).drop (tail.length + 1) =
      (front ++ old :: rest).drop ((catFront front).length + tail.length + 1) := by
    rw [List.drop_drop, List.drop_append, List.drop_of_length_le (l := front) (by omega),
      List.nil_append]
    congr 1
    omega
  rw [behind] at copied
  have short : ¬ (catFront front).length + tail.length = size := by omega
  simp only [catSeparator_room whole, Option.bind_eq_bind, Option.bind_some, copied, short,
    decide_false, Bool.false_and, Bool.false_eq_true, if_false, List.append_assoc,
    List.length_append]
  rfl

theorem pathCatInto_full (positive : 0 < size) (full : size ≤ (pathCat front src.chars).length) :
    pathCatInto (front ++ rest) front.length size src =
      some ((pathCat front src.chars).take (size - 1) ++ ['\x00'], asInt size) := by
  have last := write_last positive full '\x00'
  rw [pathCat_split] at full last ⊢
  rw [pathCatInto]
  generalize (if src.chars.head? = some '/' then src.chars.tail else src.chars) = tail at full last ⊢
  have ended : ∃ dst i, catSeparator (front ++ rest) front.length size = some (dst, i) ∧
      catLoop size tail dst i = some ((catFront front ++ tail).take size, size) := by
    cases rest with
    | nil =>
      rw [List.append_nil] at whole ⊢
      subst whole
      refine ⟨front, front.length, catSeparator_full front, ?_⟩
      have copied := @catLoop_full _ tail front [] (by rw [List.append_nil]) (Nat.zero_le _)
      have cut : (catFront front ++ tail).take front.length = front := by
        rw [catFront]
        split
        · rw [List.append_assoc, List.take_left]
        · rw [List.take_left]
      rw [cut]
      simpa using copied
    | cons old rest =>
      have moved := (separator_whole front (old :: rest) (List.cons_ne_nil _ _)).trans whole
      refine ⟨_, _, catSeparator_room whole, ?_⟩
      have room : (catFront front).length +
          ((old :: rest).drop ((catFront front).length - front.length)).length = size := by
        rw [← List.length_append, moved]
      rw [List.length_append] at full
      have copied := @catLoop_full _ tail _ _ moved (by omega)
      have left : ((old :: rest).drop ((catFront front).length - front.length)).length =
          size - (catFront front).length := Nat.eq_sub_of_add_eq' room
      rw [copied, List.take_append, List.take_of_length_le (l := catFront front) (by omega), left]
  obtain ⟨dst, i, separated, copied⟩ := ended
  simp only [separated, Option.bind_eq_bind, Option.bind_some, copied, decide_true, positive,
    Bool.and_self, if_true, last]
  rfl

end

/- What is asked of it. -/

/-- One separator stands between the two parts; in front of the first part there is none. -/
def joinedPath (front src : List Char) : List Char :=
  if front = [] then src
  else
    (if front.getLast? = some '/' then front else front ++ ['/']) ++
      (if src.head? = some '/' then src.tail else src)

def Terminated (buffer text : List Char) : Prop := ∃ rest, buffer = text ++ '\x00' :: rest

/-- The result says whether the path fits, and the buffer holds it or a part of it. No write leaves
the buffer. -/
def JoinsPath (dst : List Char) (len size : Nat) (src : CStr) : Prop :=
  ∃ buffer r, pathCatInto dst len size src = some (buffer, r) ∧
    (r < size ↔ (joinedPath (dst.take len) src.chars).length < size) ∧
    ((joinedPath (dst.take len) src.chars).length < size →
      r = (joinedPath (dst.take len) src.chars).length ∧
        Terminated buffer (joinedPath (dst.take len) src.chars)) ∧
    (size ≤ (joinedPath (dst.take len) src.chars).length →
      r = size ∧ ∃ n < (joinedPath (dst.take len) src.chars).length,
        Terminated buffer ((joinedPath (dst.take len) src.chars).take n))

/-- The result fits an `int`, and no separator in front of the source is lost behind an empty path,
unless only separators are left of the source. -/
structure CatAllowed (dst : List Char) (len size : Nat) (src : CStr) : Prop where
  small : min (joinedPath (dst.take len) src.chars).length size < 2 ^ 31
  kept : len = 0 → src.chars.head? = some '/' →
    size < src.strlen ∧ ∀ c ∈ src.chars.take size, c = '/'

theorem take_tail_iff (c : Char) (tail : List Char) (k : Nat) :
    (k ≤ tail.length ∧ (c :: tail).take k = tail.take k) ↔
      k ≤ tail.length ∧ ∀ d ∈ (c :: tail).take (k + 1), d = c := by
  induction k generalizing c tail with
  | zero => simp
  | succ k ih =>
    cases tail with
    | nil => simp
    | cons d tail =>
      have step := ih d tail
      rw [List.take_succ_cons, List.take_succ_cons, List.cons.injEq, List.take_succ_cons,
        List.forall_mem_cons, List.length_cons, Nat.add_le_add_iff_right]
      constructor
      · rintro ⟨room, rfl, same⟩
        exact ⟨room, rfl, (step.mp ⟨room, same⟩).2⟩
      · rintro ⟨room, -, all⟩
        have first : d = c := all d (by simp)
        subst first
        exact ⟨room, rfl, (step.mpr ⟨room, all⟩).2⟩

theorem terminated_iff {buffer text : List Char} (plain : '\x00' ∉ text)
    {front : List Char} (plain' : '\x00' ∉ front) {rest : List Char}
    (same : buffer = front ++ '\x00' :: rest) : Terminated buffer text ↔ text = front := by
  constructor
  · rintro ⟨rest', holds⟩
    have read := congrArg (List.takeWhile (· != '\x00')) (holds.symm.trans same)
    rw [List.takeWhile_append_of_pos, List.takeWhile_append_of_pos] at read
    · simpa using read
    · intro c inside
      simpa using fun nul : c = '\x00' => plain' (nul ▸ inside)
    · intro c inside
      simpa using fun nul : c = '\x00' => plain (nul ▸ inside)
  · rintro rfl
    exact ⟨rest, same⟩

theorem joinedPath_eq {front src : List Char} (kept : front = [] → src.head? ≠ some '/') :
    joinedPath front src = pathCat front src := by
  by_cases empty : front = []
  · subst empty
    simp [joinedPath, pathCat, kept rfl]
  · by_cases ends : front.getLast? = some '/'
    · simp [joinedPath, pathCat, empty, ends]
    · simp [joinedPath, pathCat, empty, ends]

section
variable {dst : List Char} {len size : Nat} (whole : dst.length = size) (within : len ≤ size)
  (src : CStr)
include whole within

theorem dst_split : (dst.take len ++ dst.drop len).length = size ∧ (dst.take len).length = len := by
  rw [List.take_append_drop, List.length_take]
  omega

theorem joins_kept (positive : 0 < size)
    (kept : dst.take len = [] → src.chars.head? ≠ some '/') :
    JoinsPath dst len size src ↔ min (joinedPath (dst.take len) src.chars).length size < 2 ^ 31 := by
  obtain ⟨split, length⟩ := dst_split whole within
  rw [JoinsPath, joinedPath_eq kept]
  by_cases fits : (pathCat (dst.take len) src.chars).length < size
  · have result := pathCatInto_fits split src fits
    rw [length, List.take_append_drop] at result
    rw [result, Nat.min_eq_left (Nat.le_of_lt fits), ← asInt_eq_iff]
    constructor
    · rintro ⟨buffer, r, same, -, exactly, -⟩
      obtain ⟨-, rfl⟩ := Prod.mk.inj (Option.some.inj same)
      exact (exactly fits).1
    · intro same
      refine ⟨_, _, rfl, ?_, fun _ => ⟨same, _, rfl⟩, fun full => absurd fits (Nat.not_lt.mpr full)⟩
      rw [same]
      exact Int.ofNat_lt
  · have full := Nat.le_of_not_lt fits
    have result := pathCatInto_full split src positive full
    rw [length, List.take_append_drop] at result
    rw [result, Nat.min_eq_right full, ← asInt_eq_iff]
    constructor
    · rintro ⟨buffer, r, same, -, -, overflow⟩
      obtain ⟨-, rfl⟩ := Prod.mk.inj (Option.some.inj same)
      exact (overflow full).1
    · intro same
      refine ⟨_, _, rfl, ?_, fun short => absurd short fits,
        fun _ => ⟨same, size - 1, by omega, [], rfl⟩⟩
      rw [same]
      exact iff_of_false (Int.lt_irrefl _) fits

end

theorem joins_lost {dst tail : List Char} {size : Nat} (whole : dst.length = size)
    (positive : 0 < size) {src : CStr} (leading : src.chars = '/' :: tail) :
    JoinsPath dst 0 size src ↔
      size < 2 ^ 31 ∧ size ≤ tail.length ∧ ∀ c ∈ src.chars.take size, c = '/' := by
  obtain ⟨split, length⟩ := dst_split whole (Nat.zero_le size)
  have path : joinedPath (dst.take 0) src.chars = '/' :: tail := by
    rw [List.take_zero, joinedPath, if_pos rfl, leading]
  have text : pathCat (dst.take 0) src.chars = tail := by
    rw [List.take_zero, leading]
    rfl
  have plain : '\x00' ∉ '/' :: tail := leading ▸ src.noNul
  rw [JoinsPath, path, List.length_cons]
  by_cases fits : tail.length < size
  · have result := pathCatInto_fits split src (text.symm ▸ fits)
    rw [length, List.take_append_drop, text] at result
    rw [result]
    refine iff_of_false ?_ fun ⟨_, full, _⟩ => Nat.not_lt.mpr full fits
    rintro ⟨buffer, r, same, less, exactly, -⟩
    obtain ⟨-, rfl⟩ := Prod.mk.inj (Option.some.inj same)
    have below := asInt_le tail.length
    have short := less.mp (by omega)
    have equal := (exactly short).1
    omega
  · have full := Nat.le_of_not_lt fits
    have result := pathCatInto_full split src positive (text.symm ▸ full)
    rw [length, List.take_append_drop, text] at result
    have cut := take_tail_iff '/' tail (size - 1)
    rw [Nat.sub_add_cancel positive] at cut
    have held (n : Nat) :=
      @terminated_iff _ (('/' :: tail).take n) (fun inside => plain (List.mem_of_mem_take inside))
        (tail.take (size - 1))
        (fun inside => plain (List.mem_cons_of_mem _ (List.mem_of_mem_take inside))) [] rfl
    rw [result, ← asInt_eq_iff, leading]
    constructor
    · rintro ⟨buffer, r, same, -, -, overflow⟩
      obtain ⟨rfl, rfl⟩ := Prod.mk.inj (Option.some.inj same)
      obtain ⟨equal, n, less, holds⟩ := overflow (by omega)
      have taken := (held n).mp holds
      have lengths := congrArg List.length taken
      rw [List.length_take, List.length_take, List.length_cons] at lengths
      obtain rfl : n = size - 1 := by omega
      exact ⟨equal, full, (cut.mp ⟨by omega, taken⟩).2⟩
    · rintro ⟨equal, -, all⟩
      have taken := (cut.mpr ⟨by omega, all⟩).2
      refine ⟨_, _, rfl, ?_, fun short => by omega,
        fun _ => ⟨equal, size - 1, by omega, (held _).mpr taken⟩⟩
      rw [equal]
      exact iff_of_false (Int.lt_irrefl _) (by omega)

theorem path_cat_joins (dst : List Char) (len size : Nat) (src : CStr) (whole : dst.length = size)
    (within : len ≤ size) (positive : 0 < size) :
    JoinsPath dst len size src ↔ CatAllowed dst len size src := by
  have length := (dst_split whole within).2
  have empty : dst.take len = [] ↔ len = 0 := by
    rw [← List.length_eq_zero_iff, length]
  by_cases kept : dst.take len = [] → src.chars.head? ≠ some '/'
  · rw [joins_kept whole within src positive kept]
    refine ⟨fun small => ⟨small, fun none leads => absurd leads (kept (empty.mpr none))⟩,
      fun allowed => allowed.small⟩
  · push Not at kept
    obtain ⟨none, leads⟩ := kept
    obtain rfl := empty.mp none
    obtain ⟨tail, leading⟩ := List.head?_eq_some_iff.mp leads
    have strlen : src.strlen = tail.length + 1 := by rw [CStr.strlen, leading, List.length_cons]
    have path : (joinedPath (dst.take 0) src.chars).length = tail.length + 1 := by
      rw [none, joinedPath, if_pos rfl, leading, List.length_cons]
    rw [joins_lost whole positive leading]
    constructor
    · rintro ⟨small, full, all⟩
      refine ⟨by omega, fun _ _ => ⟨by omega, all⟩⟩
    · rintro ⟨small, kept⟩
      obtain ⟨full, all⟩ := kept rfl leads
      exact ⟨by omega, by omega, all⟩

/-- The two calls for a schema file: the first result is the length that the second one gets, and
they build the path that `applySchemaFile` tests. -/
theorem schema_path_built {path : List Char} (whole : path.length = PATH_MAX_SIZE) (dir file : CStr)
    (short : (pathCat [] dir.chars).length < PATH_MAX_SIZE) :
    ∃ buffer, pathCatInto path 0 PATH_MAX_SIZE dir =
        some (buffer, ((pathCat [] dir.chars).length : Int)) ∧
      ∃ buffer' r, pathCatInto buffer (pathCat [] dir.chars).length PATH_MAX_SIZE file =
          some (buffer', r) ∧
        (PATH_MAX_SIZE ≤ r ↔ PATH_MAX_SIZE ≤ (pathCat (pathCat [] dir.chars) file.chars).length) ∧
        (r < PATH_MAX_SIZE → Terminated buffer' (pathCat (pathCat [] dir.chars) file.chars)) := by
  have small : PATH_MAX_SIZE < 2 ^ 31 := by decide
  have first := @pathCatInto_fits [] path _ whole dir short
  rw [asInt_small (by omega), List.nil_append] at first
  refine ⟨_, first, ?_⟩
  have longer : (pathCat [] dir.chars ++
      '\x00' :: path.drop ((pathCat [] dir.chars).length + 1)).length = PATH_MAX_SIZE := by
    simp only [List.length_append, List.length_cons, List.length_drop]
    omega
  by_cases fits : (pathCat (pathCat [] dir.chars) file.chars).length < PATH_MAX_SIZE
  · refine ⟨_, _, pathCatInto_fits longer file fits, ?_, fun _ => ⟨_, rfl⟩⟩
    rw [asInt_small (by omega)]
    exact Int.ofNat_le
  · have full := Nat.le_of_not_lt fits
    refine ⟨_, _, pathCatInto_full longer file (by decide) full, ?_, fun less => ?_⟩
    · rw [asInt_small small]
      exact iff_of_true (Int.le_refl _) full
    · rw [asInt_small small] at less
      exact absurd less (Int.lt_irrefl _)

theorem path_cat_joins_file :
    JoinsPath ("dir".toList ++ List.replicate 13 '\x00') 3 16 (.lit "0001_a.sql") ↔
      CatAllowed ("dir".toList ++ List.replicate 13 '\x00') 3 16 (.lit "0001_a.sql") :=
  path_cat_joins _ 3 16 _ (by decide) (by decide) (by decide)

/-- An absolute directory becomes a relative one. -/
theorem path_cat_relative :
    pathCatInto (List.replicate 16 '\x00') 0 16 (.lit "/etc") =
      some ("etc".toList ++ List.replicate 13 '\x00', 3) ∧
    ¬ JoinsPath (List.replicate 16 '\x00') 0 16 (.lit "/etc") := by
  have result : pathCatInto (List.replicate 16 '\x00') 0 16 (.lit "/etc") =
      some ("etc".toList ++ List.replicate 13 '\x00', 3) := by decide
  refine ⟨result, ?_⟩
  rintro ⟨buffer, r, same, -, exactly, -⟩
  rw [result] at same
  obtain ⟨-, rfl⟩ := Prod.mk.inj (Option.some.inj same)
  have length := (exactly (by decide)).1
  exact absurd length (by decide)

end Cpm
