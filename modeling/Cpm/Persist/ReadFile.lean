import Cpm.Lib.Buffer
import Cpm.Persist.Counters

/-! `read_file_string` over everything that read() may return, and exactly when it is right. -/
namespace Cpm

open Lib Lib.Buffer

def eintr : Int := 4

/-- A read gives some of the bytes that are left, at least one if it can, or fails with an errno. -/
inductive ReadOutcome where
  | gives (more : Nat)
  | fails (errno : Int)
  deriving DecidableEq

/-- Which system calls go through, errno before the first read, and what the reads return. fstat
gives the size of the content. -/
structure FileCalls where
  opened : Bool
  fstat : Bool
  malloc : Bool
  errno : Int
  reads : List ReadOutcome

/-- The call waits for a read, writes outside of its buffer, or returns with what `*out` is set to. -/
inductive ReadString where
  | waiting
  | outside
  | returned (rv : Int) (out : Option (List Char))
  deriving DecidableEq

def allocated (memory : Nat → Char) (size : Nat) : List Char := (List.range size).map memory

def writeAt (buffer : List Char) (n : Int) (data : List Char) : Option (List Char) :=
  if data = [] then some buffer else if 0 ≤ n then write buffer n.toNat data else none

def finishRead (buffer : List Char) (size : Nat) : ReadString :=
  match write buffer size ['\x00'] with
  | some buffer => .returned 0 (some buffer)
  | none => .outside

def readBytes (content : List Char) (pos more : Nat) : List Char :=
  (content.drop pos).take (more + 1)

/-- `n` is the result of the last read and the place of the next one, `pos` is how far the file is
read. -/
def readLoop (content : List Char) :
    List ReadOutcome → Int → Nat → Int → List Char → ReadString
  | [], _, _, _, _ => .waiting
  | .fails e :: reads, _, pos, _, buffer =>
    if e = eintr then readLoop content reads (-1) pos e buffer else .returned (-1) none
  | .gives more :: reads, n, pos, errno, buffer =>
    match writeAt buffer n (readBytes content pos more) with
    | none => .outside
    | some buffer =>
      let n := (readBytes content pos more).length
      if n = 0 || content.length = n then finishRead buffer content.length
      else if errno = eintr then readLoop content reads n (pos + n) errno buffer
      else .returned (-1) none

/-- Without the size the result is still 0. -/
def readFileString (content : List Char) (memory : Nat → Char) (calls : FileCalls) : ReadString :=
  if !calls.opened then .returned (-1) none
  else if !calls.fstat then .returned 0 none
  else if !calls.malloc then .returned (-1) none
  else readLoop content calls.reads 0 0 calls.errno (allocated memory (content.length + 1))

/-- The result is 0 exactly when the whole content was given out. -/
def Exact (content : List Char) : ReadString → Prop
  | .waiting => True
  | .outside => False
  | .returned rv out => rv = 0 ↔ out = some (content ++ ['\x00'])

def ReadsExactly (content : List Char) (calls : FileCalls) : Prop :=
  ∀ memory, Exact content (readFileString content memory calls)

/-- No read gives bytes after an interrupted one, and the end of the file is not reached by three or
more reads. A short read is followed by another one only if errno is EINTR from before. -/
def Undisturbed (size : Nat) : List ReadOutcome → Nat → Nat → Bool → Int → Prop
  | [], _, _, _, _ => True
  | .fails e :: reads, left, count, _, _ => e = eintr → Undisturbed size reads left count true e
  | .gives more :: reads, left, count, interrupted, errno =>
    if left = 0 then count ≤ 2
    else interrupted = false ∧ (min (more + 1) left < size → errno = eintr →
      Undisturbed size reads (left - min (more + 1) left) (count + 1) false errno)

structure ReadAllowed (content : List Char) (calls : FileCalls) : Prop where
  size : calls.opened = true → calls.fstat = true
  reads : calls.opened = true → calls.malloc = true → content ≠ [] →
    Undisturbed content.length calls.reads content.length 0 false calls.errno

theorem exact_failed (content : List Char) : Exact content (.returned (-1) none) :=
  iff_of_false (by decide) (Option.some_ne_none _).symm

theorem finishRead_eq {buffer : List Char} {size : Nat} (length : buffer.length = size + 1) :
    finishRead buffer size = .returned 0 (some (buffer.take size ++ ['\x00'])) := by
  have room : size + ['\x00'].length ≤ buffer.length := by
    rw [List.length_singleton, length]
  rw [finishRead, write_inside room, List.drop_of_length_le (by simp [length]), List.append_nil]

theorem readBytes_length (content : List Char) (pos more : Nat) :
    (readBytes content pos more).length = min (more + 1) (content.length - pos) := by
  rw [readBytes, List.length_take, List.length_drop]

theorem readBytes_ne_nil {content : List Char} {pos more : Nat} (left : pos < content.length) :
    readBytes content pos more ≠ [] := by
  intro none
  have given := readBytes_length content pos more
  rw [none, List.length_nil] at given
  omega

theorem readBytes_front (content : List Char) (pos more : Nat) :
    content.take pos ++ readBytes content pos more =
      content.take (pos + (readBytes content pos more).length) := by
  rw [List.take_add, readBytes, List.append_right_inj, List.take_eq_take_iff, List.length_take]
  omega

/-- The loop after some reads that gave bytes: the first two of them put the content in its place,
and a third one and those behind it leave the last byte of the buffer alone. -/
structure Copying (content : List Char) (memory : Nat → Char) (n : Int) (pos count : Nat)
    (interrupted : Bool) (buffer : List Char) : Prop where
  length : buffer.length = content.length + 1
  within : pos ≤ content.length
  begun : count = 0 ↔ pos = 0
  stopped : interrupted = true → n < 0
  place : interrupted = false → 0 ≤ n ∧ (count ≤ 1 → n = pos) ∧ (2 ≤ count → n < pos)
  front : count ≤ 2 → buffer.take pos = content.take pos
  last : pos < content.length ∨ 3 ≤ count →
    buffer[content.length - 1]? = some (memory (content.length - 1))

section
variable {content : List Char} {memory : Nat → Char} {n : Int} {pos count : Nat}
  {interrupted : Bool} {buffer : List Char}

theorem copying_start (some : content ≠ []) (memory : Nat → Char) :
    Copying content memory 0 0 0 false (allocated memory (content.length + 1)) := by
  have positive := List.length_pos_iff.mpr some
  refine ⟨by simp [allocated], Nat.zero_le _, Iff.rfl, fun other => absurd other Bool.false_ne_true,
    fun _ => ⟨by omega, fun _ => rfl, by omega⟩, fun _ => rfl, fun _ => ?_⟩
  rw [allocated, List.getElem?_map, List.getElem?_range (by omega), Option.map_some]

theorem Copying.interrupt (copying : Copying content memory n pos count interrupted buffer) :
    Copying content memory (-1) pos count true buffer :=
  ⟨copying.length, copying.within, copying.begun, fun _ => by omega,
    fun other => absurd other.symm Bool.false_ne_true, copying.front, copying.last⟩

theorem Copying.read (copying : Copying content memory n pos count false buffer) {more : Nat}
    (left : pos < content.length) :
    ∃ after, writeAt buffer n (readBytes content pos more) = some after ∧
      Copying content memory (readBytes content pos more).length
        (pos + (readBytes content pos more).length) (count + 1) false after := by
  obtain ⟨positive, early, late⟩ := copying.place rfl
  have given := readBytes_length content pos more
  have length := copying.length
  have begun := copying.begun
  have nonempty := @readBytes_ne_nil content pos more left
  obtain ⟨k, rfl⟩ := Int.eq_ofNat_of_zero_le positive
  have room : k + (readBytes content pos more).length ≤ buffer.length := by omega
  have wrote := write_inside room
  refine ⟨_, by rw [writeAt, if_neg nonempty, if_pos positive, Int.toNat_natCast]; exact wrote, ?_⟩
  refine ⟨(write_length wrote).trans length, by omega, by omega,
    fun other => absurd other Bool.false_ne_true, fun _ => ⟨by omega, by omega, by omega⟩,
    fun few => ?_, fun behind => ?_⟩
  · obtain rfl : k = pos := by omega
    rw [write_written wrote, copying.front (by omega), readBytes_front]
  · rw [write_behind wrote (by omega)]
    exact copying.last (by omega)

theorem Copying.done (copying : Copying content memory n pos count interrupted buffer)
    (ended : pos = content.length) :
    (count ≤ 2 → Exact content (finishRead buffer content.length)) ∧
      (memory (content.length - 1) ≠ content.getLastD '\x00' → content ≠ [] →
        Exact content (finishRead buffer content.length) → count ≤ 2) := by
  rw [finishRead_eq copying.length]
  constructor
  · intro few
    have whole := copying.front few
    rw [ended, List.take_length] at whole
    rw [whole]
    exact Iff.intro (fun _ => rfl) (fun _ => rfl)
  · intro differs some exact'
    have same := Option.some.inj (exact'.mp rfl)
    have text : buffer.take content.length = content := List.append_cancel_right same
    by_contra many
    have last := copying.last (by omega)
    have positive := List.length_pos_iff.mpr some
    have here : content[content.length - 1]? = .some (memory (content.length - 1)) := by
      rw [← last]
      nth_rewrite 1 [← text]
      rw [List.getElem?_take_of_lt (by omega)]
    rw [← List.getLast?_eq_getElem?] at here
    rw [List.getLastD_eq_getLast?, here] at differs
    exact differs rfl

theorem readLoop_ended {more : Nat} (ended : pos = content.length) (reads : List ReadOutcome)
    (errno : Int) :
    readLoop content (.gives more :: reads) n pos errno buffer = finishRead buffer content.length := by
  have nothing : readBytes content pos more = [] := by
    apply List.length_eq_zero_iff.mp
    rw [readBytes_length]
    omega
  rw [readLoop, nothing, writeAt, if_pos rfl]
  rfl

/-- A read behind an interrupted one writes in front of the buffer. -/
theorem Copying.outside (copying : Copying content memory n pos count true buffer) {more : Nat}
    (left : pos < content.length) (reads : List ReadOutcome) (errno : Int) :
    readLoop content (.gives more :: reads) n pos errno buffer = .outside := by
  rw [readLoop, writeAt, if_neg (readBytes_ne_nil left),
    if_neg (Int.not_le.mpr (copying.stopped rfl))]

theorem readLoop_exact (some : content ≠ []) (reads : List ReadOutcome) (errno : Int)
    (copying : Copying content memory n pos count interrupted buffer) :
    (Undisturbed content.length reads (content.length - pos) count interrupted errno →
        Exact content (readLoop content reads n pos errno buffer)) ∧
      (memory (content.length - 1) ≠ content.getLastD '\x00' →
        Exact content (readLoop content reads n pos errno buffer) →
        Undisturbed content.length reads (content.length - pos) count interrupted errno) := by
  induction reads generalizing n pos count interrupted errno buffer with
  | nil => exact ⟨fun _ => trivial, fun _ _ => trivial⟩
  | cons outcome reads ih =>
    cases outcome with
    | fails e =>
      obtain ⟨sound, complete⟩ := ih e copying.interrupt
      by_cases again : e = eintr
      · rw [readLoop, Undisturbed, if_pos again]
        exact ⟨fun undisturbed => sound (undisturbed again),
          fun differs exact' _ => complete differs exact'⟩
      · rw [readLoop, Undisturbed, if_neg again]
        exact ⟨fun _ => exact_failed content, fun _ _ same => absurd same again⟩
    | gives more =>
      have given := readBytes_length content pos more
      have within := copying.within
      rw [Undisturbed]
      by_cases ended : pos = content.length
      · obtain ⟨sound, complete⟩ := copying.done ended
        rw [if_pos (by omega), readLoop_ended ended]
        exact ⟨sound, fun differs => complete differs some⟩
      · have left : pos < content.length := Nat.lt_of_le_of_ne within ended
        rw [if_neg (by omega)]
        cases stopped : interrupted with
        | true =>
          subst stopped
          rw [copying.outside left]
          exact ⟨fun undisturbed => absurd undisturbed.1.symm Bool.false_ne_true,
            fun _ => False.elim⟩
        | false =>
          subst stopped
          obtain ⟨after, wrote, further⟩ := @Copying.read _ _ _ _ _ _ copying more left
          obtain ⟨sound, complete⟩ := ih errno further
          have remaining : content.length - (pos + (readBytes content pos more).length) =
              content.length - pos - min (more + 1) (content.length - pos) := by omega
          rw [remaining] at sound complete
          rw [readLoop]
          simp only [wrote]
          by_cases whole : content.length = (readBytes content pos more).length
          · have first : count = 0 := copying.begun.mpr (by omega)
            have finished := (further.done (by omega)).1 (by omega)
            rw [if_pos (by simp [whole])]
            exact ⟨fun _ => finished, fun _ _ => ⟨trivial, fun short => by omega⟩⟩
          · have short : min (more + 1) (content.length - pos) < content.length := by omega
            rw [if_neg (by simp only [Bool.or_eq_true, decide_eq_true_eq]; omega)]
            by_cases again : errno = eintr
            · rw [if_pos again]
              exact ⟨fun undisturbed => sound (undisturbed.2 short again),
                fun differs exact' => ⟨trivial, fun _ _ => complete differs exact'⟩⟩
            · rw [if_neg again]
              exact ⟨fun _ => exact_failed content,
                fun _ _ => ⟨trivial, fun _ same => absurd same again⟩⟩

end

/-- An empty file is read whatever the reads return. -/
theorem readLoop_empty (reads : List ReadOutcome) (n : Int) (pos : Nat) (errno : Int) (c : Char) :
    Exact [] (readLoop [] reads n pos errno [c]) := by
  induction reads generalizing n errno with
  | nil => trivial
  | cons outcome reads ih =>
    cases outcome with
    | fails e =>
      rw [readLoop]
      split
      · exact ih _ _
      · exact exact_failed []
    | gives more =>
      have nothing : readBytes [] pos more = [] := by simp [readBytes]
      rw [readLoop, nothing, writeAt, if_pos rfl]
      exact Iff.intro (fun _ => rfl) (fun _ => rfl)

theorem read_file_exact (content : List Char) (calls : FileCalls) :
    ReadsExactly content calls ↔ ReadAllowed content calls := by
  cases opened : calls.opened with
  | false =>
    refine iff_of_true (fun memory => ?_) ⟨by simp [opened], by simp [opened]⟩
    simp only [readFileString, opened, Bool.not_false, if_true]
    exact exact_failed content
  | true =>
    cases fstat : calls.fstat with
    | false =>
      refine iff_of_false (fun exactly => ?_) fun allowed => ?_
      · have unset := exactly fun _ => 'x'
        simp only [readFileString, opened, fstat, Bool.not_true, Bool.not_false, Bool.false_eq_true,
          if_false, if_true, Exact, true_iff] at unset
        cases unset
      · exact absurd (allowed.size opened) (by simp [fstat])
    | true =>
      cases malloc : calls.malloc with
      | false =>
        refine iff_of_true (fun memory => ?_) ⟨fun _ => fstat, by simp [malloc]⟩
        simp only [readFileString, opened, fstat, malloc, Bool.not_true, Bool.not_false,
          Bool.false_eq_true, if_false, if_true]
        exact exact_failed content
      | true =>
        have runs (memory : Nat → Char) : readFileString content memory calls =
            readLoop content calls.reads 0 0 calls.errno (allocated memory (content.length + 1)) := by
          simp only [readFileString, opened, fstat, malloc, Bool.not_true, Bool.false_eq_true, if_false]
        by_cases empty : content = []
        · subst empty
          refine iff_of_true (fun memory => ?_) ⟨fun _ => fstat, fun _ _ some => absurd rfl some⟩
          rw [runs]
          exact readLoop_empty _ _ _ _ _
        · have loop (memory : Nat → Char) :=
            readLoop_exact empty calls.reads calls.errno (copying_start empty memory)
          constructor
          · intro exactly
            refine ⟨fun _ => fstat, fun _ _ _ => ?_⟩
            obtain ⟨c, differs⟩ : ∃ c : Char, c ≠ content.getLastD '\x00' := by
              by_cases last : content.getLastD '\x00' = 'x'
              · exact ⟨'y', by rw [last]; decide⟩
              · exact ⟨'x', Ne.symm last⟩
            have run := exactly fun _ => c
            rw [runs] at run
            exact (loop fun _ => c).2 differs run
          · intro allowed memory
            rw [runs]
            exact (loop memory).1 (allowed.reads opened malloc empty)

theorem read_file_interrupted :
    (readFileString ['a', 'b'] (fun _ => 'x') ⟨true, true, true, 0, [.fails eintr, .gives 1]⟩ =
      .outside) ∧
    ¬ ReadsExactly ['a', 'b'] ⟨true, true, true, 0, [.fails eintr, .gives 1]⟩ ∧
    readFileString ['a', 'b'] (fun _ => 'x') ⟨true, false, true, 0, []⟩ = .returned 0 none ∧
    readFileString ['a', 'b', 'c'] (fun _ => 'x')
        ⟨true, true, true, eintr, [.gives 0, .gives 0, .gives 0, .gives 0]⟩ =
      .returned 0 (some ['a', 'c', 'x', '\x00']) := by
  have out : readFileString ['a', 'b'] (fun _ => 'x')
      ⟨true, true, true, 0, [.fails eintr, .gives 1]⟩ = .outside := by decide
  refine ⟨out, fun exactly => ?_, by decide, by decide⟩
  have run := exactly fun _ => 'x'
  rw [out] at run
  exact run

end Cpm
