import Cpm.Lib.Pieces
import Mathlib.Algebra.Group.Nat.Defs
import Mathlib.Data.List.Range

/-! The UTF-8 check of `tag.c`, with the bytes that it looks at. -/
namespace Cpm

open Lib

/-- The mask moves on as long as its bit is set. -/
def maskedOnes (byte : UInt8) : Nat → UInt8 → Nat
  | 0, _ => 0
  | left + 1, mask => if byte &&& mask = mask then maskedOnes byte left (mask >>> 1) + 1 else 0

def preNum (byte : UInt8) : Nat := maskedOnes byte 8 0x80

/-- The inner loop: whether all bytes passed, and the indices it looked at. -/
def followingBytes (data : Nat → UInt8) (i : Nat) : Nat → Bool × List Nat
  | 0 => (true, [])
  | n + 1 =>
    if data i &&& 0xc0 ≠ 0x80 then (false, [i])
    else
      let further := followingBytes data (i + 1) n
      (further.1, i :: further.2)

def utf8Loop (data : Nat → UInt8) (len i : Nat) : Bool × List Nat :=
  if i < len then
    if data i &&& 0x80 = 0 then
      let further := utf8Loop data len (i + 1)
      (further.1, i :: further.2)
    else if 2 < preNum (data i) then
      let following := followingBytes data (i + 1) (preNum (data i) - 1)
      if following.1 then
        let further := utf8Loop data len (i + preNum (data i))
        (further.1, i :: (following.2 ++ further.2))
      else (false, i :: following.2)
    else (false, [i])
  else (true, [])
termination_by len - i

/-- The answer and the indices of the bytes that were looked at; `data` is the memory from the
buffer on. -/
def neuDatatagStringIsUtf8 (data : Nat → UInt8) (len : Int) : Bool × List Nat :=
  utf8Loop data len.toNat 0

/- The documented characters. -/

def Continuation (byte : UInt8) : Prop := byte.toNat / 2 ^ 6 = 2

def Leads (n : Nat) (byte : UInt8) : Prop := byte.toNat / 2 ^ (7 - n) = 2 ^ (n + 1) - 2

/-- 0XXX_XXXX, or a lead byte with the bytes that it announces. -/
def Documented (char : List UInt8) : Prop :=
  (∃ byte, char = [byte] ∧ byte.toNat < 2 ^ 7) ∨
    ∃ lead following, char = lead :: following ∧ (∀ byte ∈ following, Continuation byte) ∧
      2 ≤ char.length ∧ char.length ≤ 6 ∧ Leads char.length lead

def bytesFrom (data : Nat → UInt8) (i len : Nat) : List UInt8 := (List.range' i (len - i)).map data

/-- The check accepts what splits into characters, and stays inside the buffer. -/
def ChecksUtf8 (data : Nat → UInt8) (len : Int) : Prop :=
  ((neuDatatagStringIsUtf8 data len).1 = true ↔ Splits Documented (bytesFrom data 0 len.toNat)) ∧
    ∀ k ∈ (neuDatatagStringIsUtf8 data len).2, (k : Int) < len

/- What the check walks through. -/

/-- One byte, or a lead byte with at least three ones and the bytes that it announces. -/
def Walked (char : List UInt8) : Prop :=
  (∃ byte, char = [byte] ∧ byte.toNat < 2 ^ 7) ∨
    ∃ lead following, char = lead :: following ∧ (∀ byte ∈ following, Continuation byte) ∧
      3 ≤ preNum lead ∧ char.length = preNum lead

/-- A byte that the check takes for no lead, or a sequence that another byte breaks off. -/
def Broken (list : List UInt8) : Prop :=
  ∃ lead tail, list = lead :: tail ∧
    ((preNum lead = 1 ∨ preNum lead = 2) ∨
      3 ≤ preNum lead ∧ ∃ following byte rest, tail = following ++ byte :: rest ∧
        following.length + 1 < preNum lead ∧ (∀ b ∈ following, Continuation b) ∧ ¬ Continuation byte)

/-- All characters have one byte or at least three; or the bytes are not text, and the check comes
to a broken place before their end. -/
def Utf8Plain (bytes : List UInt8) : Prop :=
  Splits (fun char => Documented char ∧ char.length ≠ 2) bytes ∨
    ¬ Splits Documented bytes ∧ Reaches Walked Broken bytes

/- Single bytes. -/

theorem byte_cases {p : UInt8 → Prop} (all : ∀ k : Fin 256, p (.ofNat k)) (byte : UInt8) : p byte := by
  have here := all ⟨byte.toNat, byte.toNat_lt⟩
  simpa using here

theorem ascii_iff (byte : UInt8) : byte &&& 0x80 = 0 ↔ byte.toNat < 2 ^ 7 := by
  revert byte
  refine byte_cases ?_
  decide +kernel

theorem continuation_iff (byte : UInt8) : byte &&& 0xc0 = 0x80 ↔ Continuation byte := by
  unfold Continuation
  revert byte
  refine byte_cases ?_
  decide +kernel

theorem preNum_ascii (byte : UInt8) : preNum byte = 0 ↔ byte.toNat < 2 ^ 7 := by
  revert byte
  refine byte_cases ?_
  decide +kernel

theorem leads_iff (byte : UInt8) {n : Nat} (low : 2 ≤ n) (high : n ≤ 6) :
    Leads n byte ↔ preNum byte = n := by
  have all : ∀ n : Fin 7, 2 ≤ n.val → (byte.toNat / 2 ^ (7 - n.val) = 2 ^ (n.val + 1) - 2 ↔
      preNum byte = n) := by
    revert byte
    refine byte_cases ?_
    decide +kernel
  exact all ⟨n, by omega⟩ low

/- Pieces at the front. -/

def announcedLength (lead : UInt8) : Nat := if preNum lead = 0 then 1 else preNum lead

theorem headed_documented : Headed announcedLength Documented := by
  rintro front (⟨byte, rfl, ascii⟩ | ⟨lead, following, rfl, _, low, high, leads⟩)
  · refine ⟨byte, [], rfl, ?_⟩
    rw [announcedLength, if_pos ((preNum_ascii byte).2 ascii), List.length_singleton]
  · have ones := (leads_iff lead low high).1 leads
    refine ⟨lead, following, rfl, ?_⟩
    rw [announcedLength, if_neg (by omega), ones]

theorem headed_walked : Headed announcedLength Walked := by
  rintro front (⟨byte, rfl, ascii⟩ | ⟨lead, following, rfl, _, low, length⟩)
  · refine ⟨byte, [], rfl, ?_⟩
    rw [announcedLength, if_pos ((preNum_ascii byte).2 ascii), List.length_singleton]
  · refine ⟨lead, following, rfl, ?_⟩
    rw [announcedLength, if_neg (by omega), length]

section
variable {front rest list tail : List UInt8} {lead : UInt8}

theorem walked_lead (walked : Walked front) (start : front ++ rest = lead :: tail)
    (high : preNum lead ≠ 0) : 3 ≤ preNum lead ∧ ∃ following, tail = following ++ rest ∧
      following.length + 1 = preNum lead ∧ ∀ byte ∈ following, Continuation byte := by
  obtain ⟨byte, rfl, ascii⟩ | ⟨lead', following, rfl, continues, low, length⟩ := walked
  · obtain ⟨rfl, _⟩ := List.cons.inj start
    exact absurd ((preNum_ascii byte).2 ascii) high
  · obtain ⟨rfl, rfl⟩ := List.cons.inj start
    exact ⟨low, following, rfl, length, continues⟩

/-- No piece starts at a broken place. -/
theorem broken_apart (walked : Walked front) : ¬ Broken (front ++ rest) := by
  rintro ⟨lead, tail, start, few | ⟨many, following, byte, rest', rfl, short, _, breaks⟩⟩
  · have low := (walked_lead walked start (by omega)).1
    omega
  · obtain ⟨_, following', same, length, continues⟩ := walked_lead walked start (by omega)
    -- The byte that breaks the sequence off would be one of those that continue it.
    have inside : byte ∈ following' := by
      have place : (following' ++ rest)[following.length]? = some byte := by
        rw [← same]
        simp
      rw [List.getElem?_append_left (by omega)] at place
      exact List.mem_of_getElem? place
    exact breaks (continues byte inside)

def stopsAt : Bool → List UInt8 → Prop
  | true, list => list = []
  | false, list => Broken list

theorem stopsAt_apart (answer : Bool) (walked : Walked front) : ¬ stopsAt answer (front ++ rest) := by
  cases answer with
  | true => exact Splits.nonempty headed_walked walked
  | false => exact broken_apart walked

theorem walked_on (answer : Bool) (walked : Walked front) :
    Reaches Walked (stopsAt answer) (front ++ rest) ↔ Reaches Walked (stopsAt answer) rest :=
  Reaches.behind_iff headed_walked walked (stopsAt_apart answer walked)

theorem end_reached (answer : Bool) : true = answer ↔ Reaches Walked (stopsAt answer) [] := by
  cases answer with
  | true => exact iff_of_true rfl (.here rfl)
  | false =>
    refine iff_of_false (by decide) (Reaches.stuck ?_ ?_)
    · intro front rest same walked
      exact Splits.nonempty headed_walked walked same.symm
    · rintro ⟨_, _, nothing, _⟩
      cases nothing

theorem broken_reached (broken : Broken list) (answer : Bool) :
    false = answer ↔ Reaches Walked (stopsAt answer) list := by
  cases answer with
  | false => exact iff_of_true rfl (.here broken)
  | true =>
    refine iff_of_false (by decide) (Reaches.stuck ?_ ?_)
    · intro front rest same walked
      exact broken_apart walked (same ▸ broken)
    · obtain ⟨lead, tail, rfl, _⟩ := broken
      exact List.cons_ne_nil _ _

/-- A sequence that is cut off by the end of the buffer leads nowhere. -/
theorem cut_stuck (many : 3 ≤ preNum lead) (short : tail.length + 1 < preNum lead)
    (continues : ∀ byte ∈ tail, Continuation byte) (answer : Bool) :
    ¬ Reaches Walked (stopsAt answer) (lead :: tail) := by
  refine Reaches.stuck ?_ ?_
  · intro front rest same walked
    obtain ⟨_, following, rfl, length, _⟩ := walked_lead walked same.symm (by omega)
    rw [List.length_append] at short
    omega
  · cases answer with
    | true => exact List.cons_ne_nil _ _
    | false =>
      rintro ⟨_, _, start, few | ⟨_, following, byte, rest', split, _, _, breaks⟩⟩
      · obtain ⟨rfl, rfl⟩ := List.cons.inj start
        omega
      · obtain ⟨rfl, rfl⟩ := List.cons.inj start
        exact breaks (continues byte (by simp [split]))

end

/- The loops. -/

section
variable (data : Nat → UInt8)

theorem bytesFrom_append {i n len : Nat} (inside : i + n ≤ len) :
    bytesFrom data i len = (List.range' i n).map data ++ bytesFrom data (i + n) len := by
  have lengths : len - i = n + (len - (i + n)) := by omega
  rw [bytesFrom, lengths, ← List.range'_append_1, List.map_append, bytesFrom]

theorem bytesFrom_cons {i len : Nat} (inside : i < len) :
    bytesFrom data i len = data i :: bytesFrom data (i + 1) len :=
  bytesFrom_append data (n := 1) inside

theorem bytesFrom_end {i len : Nat} (outside : len ≤ i) : bytesFrom data i len = [] := by
  rw [bytesFrom, Nat.sub_eq_zero_of_le outside]
  rfl

theorem followingBytes_cases (i n : Nat) :
    (followingBytes data i n = (true, List.range' i n) ∧
      ∀ byte ∈ (List.range' i n).map data, Continuation byte) ∨
    ∃ m < n, followingBytes data i n = (false, List.range' i (m + 1)) ∧
      (∀ byte ∈ (List.range' i m).map data, Continuation byte) ∧ ¬ Continuation (data (i + m)) := by
  induction n generalizing i with
  | zero => exact .inl ⟨rfl, nofun⟩
  | succ n ih =>
    by_cases continues : Continuation (data i)
    · have passes : ¬ data i &&& 0xc0 ≠ 0x80 := not_not.2 ((continuation_iff _).2 continues)
      obtain ⟨ran, all⟩ | ⟨m, inside, ran, all, breaks⟩ := ih (i + 1)
      · refine .inl ⟨?_, ?_⟩
        · rw [followingBytes, if_neg passes, ran, List.range'_succ]
        · rw [List.range'_succ, List.map_cons]
          exact List.forall_mem_cons.2 ⟨continues, all⟩
      · refine .inr ⟨m + 1, by omega, ?_, ?_, ?_⟩
        · rw [followingBytes, if_neg passes, ran]
          rfl
        · rw [List.range'_succ, List.map_cons]
          exact List.forall_mem_cons.2 ⟨continues, all⟩
        · have place : i + (m + 1) = i + 1 + m := by omega
          rwa [place]
    · have stops : data i &&& 0xc0 ≠ 0x80 := mt (continuation_iff _).1 continues
      exact .inr ⟨0, by omega, by rw [followingBytes, if_pos stops]; rfl, nofun, continues⟩

theorem bytesFrom_length (i len : Nat) : (bytesFrom data i len).length = len - i := by
  simp [bytesFrom]

variable {data}

theorem bytesFrom_stuck {i m len : Nat} (below : i < len) (many : 3 ≤ preNum (data i))
    (continues : ∀ byte ∈ (List.range' (i + 1) m).map data, Continuation byte)
    (past : len ≤ i + 1 + m) (short : len < i + preNum (data i)) (answer : Bool) :
    ¬ Reaches Walked (stopsAt answer) (bytesFrom data i len) := by
  rw [bytesFrom_cons data below]
  refine cut_stuck many ?_ (fun byte inside => continues byte ?_) answer
  · rw [bytesFrom_length]
    omega
  · obtain ⟨k, place, rfl⟩ := List.mem_map.1 inside
    rw [List.mem_range'_1] at place
    exact List.mem_map.2 ⟨k, List.mem_range'_1.2 (by omega), rfl⟩

theorem bytesFrom_broken {i m len : Nat} (many : 3 ≤ preNum (data i)) (short : m + 1 < preNum (data i))
    (continues : ∀ byte ∈ (List.range' (i + 1) m).map data, Continuation byte)
    (breaks : ¬ Continuation (data (i + 1 + m))) (inside : i + 1 + m < len) :
    Broken (bytesFrom data i len) := by
  refine ⟨data i, _, bytesFrom_cons data (by omega), .inr ⟨many, (List.range' (i + 1) m).map data,
    data (i + 1 + m), bytesFrom data (i + 1 + m + 1) len, ?_, ?_, continues, breaks⟩⟩
  · rw [bytesFrom_append data (Nat.le_of_lt inside), bytesFrom_cons data inside]
  · rw [List.length_map, List.length_range']
    exact short

theorem bytesFrom_sequence {i len : Nat} (many : 3 ≤ preNum (data i))
    (continues : ∀ byte ∈ (List.range' (i + 1) (preNum (data i) - 1)).map data, Continuation byte)
    (fits : i + preNum (data i) ≤ len) (answer : Bool) :
    Reaches Walked (stopsAt answer) (bytesFrom data i len) ↔
      Reaches Walked (stopsAt answer) (bytesFrom data (i + preNum (data i)) len) := by
  have next : i + 1 + (preNum (data i) - 1) = i + preNum (data i) := by omega
  have walked : Walked (data i :: (List.range' (i + 1) (preNum (data i) - 1)).map data) := by
    refine .inr ⟨_, _, rfl, continues, many, ?_⟩
    rw [List.length_cons, List.length_map, List.length_range']
    omega
  have on : Reaches Walked (stopsAt answer) (data i :: ((List.range' (i + 1)
      (preNum (data i) - 1)).map data ++ bytesFrom data (i + preNum (data i)) len)) ↔
      Reaches Walked (stopsAt answer) (bytesFrom data (i + preNum (data i)) len) :=
    walked_on answer walked
  have below : i < len := by omega
  rw [bytesFrom_cons data below, bytesFrom_append data (next ▸ fits), next, on]

/-- Where the loop stops, and with what answer, as long as it stays inside the buffer. -/
theorem utf8Loop_iff (data : Nat → UInt8) (len i : Nat) (inside : i ≤ len) (answer : Bool) :
    ((utf8Loop data len i).1 = answer ∧ ∀ k ∈ (utf8Loop data len i).2, k < len) ↔
      Reaches Walked (stopsAt answer) (bytesFrom data i len) := by
  fun_induction utf8Loop data len i with
  | case1 i below ascii further ih =>
    have walked : Walked [data i] := .inl ⟨data i, rfl, (ascii_iff _).1 ascii⟩
    have on : Reaches Walked (stopsAt answer) (data i :: bytesFrom data (i + 1) len) ↔
        Reaches Walked (stopsAt answer) (bytesFrom data (i + 1) len) := walked_on answer walked
    rw [bytesFrom_cons data below, on, ← ih below]
    simp only [List.forall_mem_cons, below, true_and, further]
  | case2 i below high many following passed further ih =>
    obtain ⟨ran, continues⟩ | ⟨m, _, ran, _⟩ := followingBytes_cases data (i + 1) (preNum (data i) - 1)
    · have seen : following.2 = List.range' (i + 1) (preNum (data i) - 1) := congrArg Prod.snd ran
      rw [seen]
      by_cases fits : i + preNum (data i) ≤ len
      · have near : ∀ k ∈ List.range' (i + 1) (preNum (data i) - 1), k < len := by
          intro k place
          rw [List.mem_range'_1] at place
          omega
        have within : (∀ k ∈ i :: (List.range' (i + 1) (preNum (data i) - 1) ++ further.2), k < len) ↔
            ∀ k ∈ further.2, k < len := by
          rw [List.forall_mem_cons, List.forall_mem_append]
          exact ⟨fun all => all.2.2, fun all => ⟨below, near, all⟩⟩
        rw [bytesFrom_sequence many continues fits answer, ← ih fits]
        exact and_congr_right' within
      · have last : i + preNum (data i) - 1 ∈ List.range' (i + 1) (preNum (data i) - 1) :=
          List.mem_range'_1.2 (by omega)
        refine iff_of_false ?_ (bytesFrom_stuck below many continues (by omega) (by omega) answer)
        rintro ⟨_, within⟩
        have near := within _ (List.mem_cons_of_mem _ (List.mem_append_left _ last))
        omega
    · have failed : following.1 = false := congrArg Prod.fst ran
      cases failed.symm.trans passed
  | case3 i below high many following stopped =>
    obtain ⟨ran, _⟩ | ⟨m, short, ran, continues, breaks⟩ :=
      followingBytes_cases data (i + 1) (preNum (data i) - 1)
    · exact absurd (congrArg Prod.fst ran) stopped
    · have seen : following.2 = List.range' (i + 1) (m + 1) := congrArg Prod.snd ran
      rw [seen]
      by_cases fits : i + 1 + m < len
      · have broken := bytesFrom_broken many (by omega) continues breaks fits
        have near : ∀ k ∈ i :: List.range' (i + 1) (m + 1), k < len := by
          refine List.forall_mem_cons.2 ⟨below, fun k place => ?_⟩
          rw [List.mem_range'_1] at place
          omega
        rw [← broken_reached broken answer]
        exact and_iff_left near
      · have last : i + 1 + m ∈ List.range' (i + 1) (m + 1) := List.mem_range'_1.2 (by omega)
        refine iff_of_false ?_ (bytesFrom_stuck below many continues (by omega) (by omega) answer)
        rintro ⟨_, within⟩
        exact fits (within _ (List.mem_cons_of_mem _ last))
  | case4 i below high few =>
    have ones : preNum (data i) ≠ 0 := mt ((preNum_ascii _).1 · |> (ascii_iff _).2) high
    have broken : Broken (bytesFrom data i len) :=
      ⟨data i, _, bytesFrom_cons data below, .inl (by omega)⟩
    rw [← broken_reached broken answer]
    exact and_iff_left (by simpa using below)
  | case5 i outside =>
    rw [bytesFrom_end data (Nat.not_lt.1 outside), ← end_reached answer]
    simp

end

/-- Of the documented characters, the check walks through all but those of two bytes. -/
theorem documented_walked {char : List UInt8} (documented : Documented char) :
    Walked char ↔ char.length ≠ 2 := by
  obtain ⟨byte, rfl, ascii⟩ | ⟨lead, following, rfl, continues, low, high, leads⟩ := documented
  · exact iff_of_true (.inl ⟨byte, rfl, ascii⟩) (by simp)
  · have ones := (leads_iff lead low high).1 leads
    constructor
    · intro walked two
      have alone : (lead :: following) ++ [] = lead :: following := List.append_nil _
      have many := (walked_lead walked alone (by omega)).1
      omega
    · intro others
      exact .inr ⟨lead, following, rfl, continues, by omega, ones.symm⟩

theorem utf8_check (data : Nat → UInt8) (len : Int) :
    ChecksUtf8 data len ↔ Utf8Plain (bytesFrom data 0 len.toNat) := by
  have within : (∀ k ∈ (neuDatatagStringIsUtf8 data len).2, (k : Int) < len) ↔
      ∀ k ∈ (utf8Loop data len.toNat 0).2, k < len.toNat :=
    forall₂_congr fun k _ => by omega
  have stops := utf8Loop_iff data len.toNat 0 (Nat.zero_le _)
  have accepts : _ ↔ Splits Walked (bytesFrom data 0 len.toNat) := stops true
  have refuses : _ ↔ Reaches Walked Broken (bytesFrom data 0 len.toNat) := stops false
  have usual : Splits (fun char => Documented char ∧ char.length ≠ 2) (bytesFrom data 0 len.toNat) ↔
      Splits Documented (bytesFrom data 0 len.toNat) ∧ Splits Walked (bytesFrom data 0 len.toNat) := by
    rw [Splits.both headed_documented headed_walked]
    have same : (fun char => Documented char ∧ char.length ≠ 2) =
        fun char => Documented char ∧ Walked char :=
      funext fun char => propext (and_congr_right fun documented => (documented_walked documented).symm)
    rw [same]
  unfold ChecksUtf8 Utf8Plain
  rw [within, usual, ← accepts, ← refuses, neuDatatagStringIsUtf8]
  cases (utf8Loop data len.toNat 0).1
  · simp
  · simp

def twoByteText : Nat → UInt8
  | 0 => 0xC3
  | 1 => 0xA9
  | _ => 0

/-- A character of two bytes is refused at its lead byte. -/
theorem utf8_check_two : Splits Documented (bytesFrom twoByteText 0 2) ∧
    neuDatatagStringIsUtf8 twoByteText 2 = (false, [0]) ∧ ¬ ChecksUtf8 twoByteText 2 := by
  have documented : Documented [0xC3, 0xA9] := by
    refine .inr ⟨0xC3, [0xA9], rfl, ?_, by decide, by decide, ?_⟩
    · exact List.forall_mem_singleton.2 (by unfold Continuation; decide)
    · unfold Leads
      decide
  have splits : Splits Documented (bytesFrom twoByteText 0 2) := .behind documented (.here rfl)
  have ran : neuDatatagStringIsUtf8 twoByteText 2 = (false, [0]) := by
    rw [neuDatatagStringIsUtf8, utf8Loop, if_pos (by decide), if_neg (by decide), if_neg (by decide)]
  refine ⟨splits, ran, fun checks => ?_⟩
  have accepted := checks.1.2 splits
  rw [ran] at accepted
  cases accepted

end Cpm
