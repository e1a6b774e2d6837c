import Cpm.Lib.CString
import Cpm.Lib.Paths

/-! Topic matching, from `utils/mqtt.c`, compared with the matching of whole levels. -/
namespace Cpm.Mqtt

open Lib Lib.Paths

/-- The inner loop on '+': the topic moves to the next '/' or to its end. -/
def skipLevel : List Char → List Char
  | [] => []
  | t :: topic => if t = '/' then t :: topic else skipLevel topic

/-- The loop of `topic_matches_wildcard` and the test behind it. It stops as soon as one of
the two strings is used up. -/
def matchLoop : (wildcard topic : List Char) → Bool
  | [], topic => topic.isEmpty
  | w :: _, [] => w = '#'
  | w :: wildcard, t :: topic =>
    if w = '+' then matchLoop wildcard (skipLevel (t :: topic))
    else if w = '#' then true
    else if t ≠ w then false
    else matchLoop wildcard topic

def topicMatchesWildcard (topic wildcard : CStr) : Bool :=
  if wildcard.chars = ['#'] then true else matchLoop wildcard.chars topic.chars

/- The levels of a topic and the pattern that a filter denotes. -/

def levels (topic : List Char) : List (List Char) := topic.splitOn '/'

def plain (level : List Char) : Bool := '+' ∉ level && '#' ∉ level

def singleLevel (level : List Char) : Bool := level = ['+'] || plain level

/-- A wildcard occupies a whole level, and '#' is only the last one. -/
def validLevels : List (List Char) → Bool
  | [] => true
  | [l] => l = ['#'] || singleLevel l
  | l :: ls => singleLevel l && validLevels ls

def ValidFilter (wildcard : CStr) : Prop := validLevels (levels wildcard.chars) = true

instance (wildcard : CStr) : Decidable (ValidFilter wildcard) :=
  inferInstanceAs (Decidable (_ = true))

def levelOf (level : List Char) : Level (List Char) :=
  if level = ['+'] then .any else if level = ['#'] then .rest else .exact level

def pattern (wildcard : List Char) : List (Level (List Char)) := (levels wildcard).map levelOf

/-- The topic matches the filter level by level: the MQTT reading. -/
def LevelMatch (topic wildcard : CStr) : Prop :=
  Matches (pattern wildcard.chars) (levels topic.chars)

instance (topic wildcard : CStr) : Decidable (LevelMatch topic wildcard) :=
  inferInstanceAs (Decidable (Matches _ _))

/-- What the loop overlooks when the topic ends before the filter: the parent of a trailing
'#', and an empty last level under a trailing '+'. -/
def Overlooked (ps : List (Level (List Char))) (path : List (List Char)) : Prop :=
  (∃ p, p ≠ [] ∧ ps = p ++ [.rest] ∧ Matches p path) ∨
  (∃ p q, ps = p ++ [.any] ∧ path = q ++ [[]] ∧ Matches p q)

theorem levels_ne_nil (topic : List Char) : levels topic ≠ [] := List.splitOn_ne_nil '/' topic

@[simp] theorem levels_nil : levels [] = [[]] := List.splitOn_nil '/'

@[simp] theorem levels_sep (topic : List Char) : levels ('/' :: topic) = [] :: levels topic := by
  simp [levels, List.splitOn_cons_eq_if_modifyHead]

theorem levels_char {c : Char} (inside : c ≠ '/') {topic l : List Char} {ls : List (List Char)}
    (split : levels topic = l :: ls) : levels (c :: topic) = (c :: l) :: ls := by
  unfold levels at split ⊢
  simp [List.splitOn_cons_eq_if_modifyHead, inside, split]

theorem levels_append (front back : List Char) :
    levels (front ++ '/' :: back) = levels front ++ levels back := by
  induction front with
  | nil => simp
  | cons t front ih =>
    by_cases sep : t = '/'
    · simp [sep, ih]
    · obtain ⟨l, ls, split⟩ := List.exists_cons_of_ne_nil (levels_ne_nil front)
      have whole : levels (front ++ '/' :: back) = l :: (ls ++ levels back) := by simp [ih, split]
      rw [List.cons_append, levels_char sep whole, levels_char sep split, List.cons_append]

theorem levels_single {level : List Char} (single : '/' ∉ level) : levels level = [level] := by
  induction level with
  | nil => exact levels_nil
  | cons c level ih =>
    simp only [List.mem_cons, not_or] at single
    exact levels_char (Ne.symm single.1) (ih single.2)

theorem levels_skipLevel {topic l : List Char} {ls : List (List Char)}
    (split : levels topic = l :: ls) : levels (skipLevel topic) = [] :: ls := by
  induction topic generalizing l with
  | nil =>
    obtain ⟨-, rfl⟩ := List.cons.inj (levels_nil.symm.trans split)
    rfl
  | cons t topic ih =>
    by_cases sep : t = '/'
    · subst sep
      obtain ⟨-, rfl⟩ := List.cons.inj ((levels_sep topic).symm.trans split)
      simp [skipLevel]
    · obtain ⟨m, ms, inner⟩ := List.exists_cons_of_ne_nil (levels_ne_nil topic)
      obtain ⟨-, rfl⟩ := List.cons.inj ((levels_char sep inner).symm.trans split)
      simpa [skipLevel, sep] using ih inner

theorem levels_eq_empty {topic : List Char} (h : levels topic = [[]]) : topic = [] := by
  cases topic with
  | nil => rfl
  | cons t topic =>
    obtain ⟨m, ms, inner⟩ := List.exists_cons_of_ne_nil (levels_ne_nil topic)
    by_cases sep : t = '/'
    · simp [sep, levels_ne_nil] at h
    · simp [levels_char sep inner] at h

theorem validLevels_cons {l : List Char} {ls : List (List Char)} (more : ls ≠ []) :
    validLevels (l :: ls) = (singleLevel l && validLevels ls) := by
  cases ls with
  | nil => exact absurd rfl more
  | cons m ms => rfl

theorem levelOf_plain {level : List Char} (h : plain level = true) :
    levelOf level = .exact level := by
  unfold plain at h
  unfold levelOf
  rw [if_neg (by rintro rfl; simp at h), if_neg (by rintro rfl; simp at h)]

theorem levelOf_ne_rest {level : List Char} (h : singleLevel level = true) :
    levelOf level ≠ .rest := by
  by_cases wild : level = ['+']
  · simp [levelOf, wild]
  · rw [levelOf_plain (by simpa [singleLevel, wild] using h)]
    simp

theorem rest_not_mem_dropLast {ls : List (List Char)} (valid : validLevels ls = true) :
    .rest ∉ (ls.map levelOf).dropLast := by
  induction ls with
  | nil => simp
  | cons l ls ih =>
    by_cases last : ls = []
    · simp [last]
    · rw [validLevels_cons last, Bool.and_eq_true] at valid
      simp [List.dropLast_cons_of_ne_nil (mt List.map_eq_nil_iff.mp last), ih valid.2,
        (levelOf_ne_rest valid.1).symm]

theorem overlooked_matches {ps : List (Level (List Char))} {path : List (List Char)}
    (single : .rest ∉ ps.dropLast) (missed : Overlooked ps path) : Matches ps path := by
  rcases missed with ⟨p, -, rfl, parent⟩ | ⟨p, q, rfl, rfl, front⟩
  · simpa using parent.append (by simpa using single) (.rest [])
  · exact front.append (by simpa using single) (.cons (.any []) .nil)

@[simp] theorem overlooked_rest (path : List (List Char)) : ¬ Overlooked [.rest] path := by
  rintro (⟨p, nonempty, split, -⟩ | ⟨p, q, split, -, -⟩)
  · have := congrArg List.length split
    simp_all
  · simpa using congrArg List.getLast? split

/-- Past a single level the same cases remain, and a lone '+' adds the empty last level. -/
theorem overlooked_cons {p : Level (List Char)} {a : List Char} {ps : List (Level (List Char))}
    {path : List (List Char)} (single : p ≠ .rest) :
    Overlooked (p :: ps) (a :: path) ↔
      Covers p a ∧ ((ps = [.rest] ∧ path = []) ∨ Overlooked ps path) ∨
        (p = .any ∧ ps = [] ∧ a = [] ∧ path = []) := by
  constructor
  · rintro (⟨front, nonempty, split, parent⟩ | ⟨front, q, split, path_eq, parent⟩)
    · obtain ⟨p', front, rfl⟩ := List.exists_cons_of_ne_nil nonempty
      obtain ⟨rfl, rfl⟩ := List.cons.inj split
      obtain ⟨head, tail⟩ := (matches_cons single).mp parent
      refine .inl ⟨head, ?_⟩
      by_cases last : front = []
      · subst last
        exact .inl ⟨rfl, matches_nil.mp tail⟩
      · exact .inr (.inl ⟨front, last, rfl, tail⟩)
    · cases front with
      | nil =>
        obtain ⟨rfl, rfl⟩ := List.cons.inj split
        obtain rfl := matches_nil.mp parent
        obtain ⟨rfl, rfl⟩ := List.cons.inj path_eq
        exact .inr ⟨rfl, rfl, rfl, rfl⟩
      | cons p' front =>
        obtain ⟨rfl, rfl⟩ := List.cons.inj split
        cases q with
        | nil =>
          rcases matches_nil_path.mp parent with h | h
          · simp at h
          · exact absurd (List.cons.inj h).1 single
        | cons b q =>
          obtain ⟨rfl, rfl⟩ := List.cons.inj path_eq
          obtain ⟨head, tail⟩ := (matches_cons single).mp parent
          exact .inl ⟨head, .inr (.inr ⟨front, q, rfl, rfl, tail⟩)⟩
  · rintro (⟨head, ⟨rfl, rfl⟩ | ⟨front, nonempty, rfl, parent⟩ | ⟨front, q, rfl, rfl, parent⟩⟩ |
      ⟨rfl, rfl, rfl, rfl⟩)
    · exact .inl ⟨[p], by simp, rfl, .cons head .nil⟩
    · exact .inl ⟨p :: front, by simp, rfl, .cons head parent⟩
    · exact .inr ⟨p :: front, a :: q, rfl, rfl, .cons head parent⟩
    · exact .inr ⟨[], [], rfl, rfl, .nil⟩

def Found (ps : List (Level (List Char))) (path : List (List Char)) : Prop :=
  Matches ps path ∧ ¬ Overlooked ps path

@[simp] theorem found_rest (path : List (List Char)) : Found [.rest] path :=
  ⟨.rest path, overlooked_rest path⟩

@[simp] theorem found_nil {path : List (List Char)} : Found [] path ↔ path = [] := by
  simp [Found, Overlooked]

theorem found_cons {p : Level (List Char)} {a : List Char} {ps : List (Level (List Char))}
    {path : List (List Char)} (single : p ≠ .rest) :
    Found (p :: ps) (a :: path) ↔ Covers p a ∧ Found ps path ∧ ¬ (ps = [.rest] ∧ path = []) ∧
      ¬ (p = .any ∧ ps = [] ∧ a = [] ∧ path = []) := by
  simp only [Found, matches_cons single, overlooked_cons single]
  grind

/-- An empty topic is found under no filter but '#' and the empty one. -/
theorem found_empty {p : Level (List Char)} {ps : List (Level (List Char))} (single : p ≠ .rest) :
    Found (p :: ps) [[]] ↔ p = .exact [] ∧ ps = [] := by
  rw [found_cons single]
  constructor
  · rintro ⟨head, ⟨tail, -⟩, parent, final⟩
    rcases matches_nil_path.mp tail with rfl | rfl
    · cases head with
      | exact => exact ⟨rfl, rfl⟩
      | any => simp at final
    · simp at parent
  · rintro ⟨rfl, rfl⟩
    simp

theorem singleLevel_head {w : Char} {l : List Char} (h : singleLevel (w :: l) = true) :
    (w = '+' ∧ l = []) ∨ plain (w :: l) = true := by
  simpa [singleLevel] using h

theorem plain_cons {w : Char} {l : List Char} :
    plain (w :: l) = true ↔ w ≠ '+' ∧ w ≠ '#' ∧ plain l = true := by
  simp only [plain, Bool.and_eq_true, decide_eq_true_eq, List.mem_cons, not_or]
  grind

/-- A valid filter begins with '#' and ends there, or with a single level. -/
theorem validLevels_head {l : List Char} {ls : List (List Char)}
    (valid : validLevels (l :: ls) = true) :
    (l = ['#'] ∧ ls = []) ∨
      (singleLevel l = true ∧ ∀ m, singleLevel m = true → validLevels (m :: ls) = true) := by
  cases ls with
  | nil =>
    rcases (by simpa [validLevels] using valid) with h | h
    · exact .inl ⟨h, rfl⟩
    · exact .inr ⟨h, fun m single => by simp [validLevels, single]⟩
  | cons m ms =>
    rw [validLevels_cons (by simp), Bool.and_eq_true] at valid
    refine .inr ⟨valid.1, fun m' single => ?_⟩
    rw [validLevels_cons (by simp), single, valid.2, Bool.and_self]

/-- The first character of a valid filter decides the first level of its pattern. -/
theorem pattern_cases {w : Char} {wildcard l : List Char} {ls : List (List Char)}
    (split : levels wildcard = l :: ls) (valid : validLevels (levels (w :: wildcard)) = true) :
    (w = '/' ∧ pattern (w :: wildcard) = .exact [] :: pattern wildcard ∧
      validLevels (levels wildcard) = true) ∨
    (w = '#' ∧ pattern (w :: wildcard) = [.rest]) ∨
    (w = '+' ∧ l = [] ∧ pattern (w :: wildcard) = .any :: ls.map levelOf ∧
      validLevels (levels wildcard) = true) ∨
    (w ≠ '/' ∧ w ≠ '#' ∧ w ≠ '+' ∧ pattern (w :: wildcard) = .exact (w :: l) :: ls.map levelOf ∧
      levelOf l = .exact l ∧ validLevels (levels wildcard) = true) := by
  by_cases sep : w = '/'
  · subst sep
    rw [levels_sep, validLevels_cons (levels_ne_nil _), Bool.and_eq_true] at valid
    refine .inl ⟨rfl, ?_, valid.2⟩
    rw [pattern, levels_sep]
    rfl
  · have parts : levels (w :: wildcard) = (w :: l) :: ls := levels_char sep split
    rw [parts] at valid
    simp only [pattern, parts, List.map_cons, split]
    rcases validLevels_head valid with ⟨hash, rfl⟩ | ⟨single, keep⟩
    · obtain ⟨rfl, rfl⟩ := List.cons.inj hash
      exact .inr (.inl ⟨rfl, rfl⟩)
    · rcases singleLevel_head single with ⟨rfl, rfl⟩ | level
      · exact .inr (.inr (.inl ⟨rfl, rfl, rfl, keep [] rfl⟩))
      · have inner := plain_cons.mp level
        refine .inr (.inr (.inr ⟨sep, inner.2.1, inner.1, ?_, levelOf_plain inner.2.2, ?_⟩))
        · rw [levelOf_plain level]
        · exact keep l (by simp [singleLevel, inner.2.2])

theorem levels_head {t c : Char} {topic l : List Char} {ls : List (List Char)}
    (split : levels (t :: topic) = (c :: l) :: ls) : t = c := by
  by_cases sep : t = '/'
  · simp [sep] at split
  · obtain ⟨m, ms, inner⟩ := List.exists_cons_of_ne_nil (levels_ne_nil topic)
    rw [levels_char sep inner] at split
    exact (List.cons.inj (List.cons.inj split).1).1

theorem matchLoop_end (topic : List Char) : matchLoop [] topic = true ↔ topic = [] := by
  simp [matchLoop]

/- Induction on the filter; the topic varies, since '+' moves it by a whole level. -/
theorem matchLoop_iff_found (wildcard topic : List Char)
    (valid : validLevels (levels wildcard) = true) :
    matchLoop wildcard topic = true ↔ Found (pattern wildcard) (levels topic) := by
  induction wildcard generalizing topic with
  | nil =>
    obtain ⟨m, ms, split⟩ := List.exists_cons_of_ne_nil (levels_ne_nil topic)
    have start : pattern [] = [.exact []] := by decide
    rw [start, split, found_cons (by simp), matchLoop_end]
    constructor
    · rintro rfl
      obtain ⟨rfl, rfl⟩ := List.cons.inj (levels_nil.symm.trans split)
      simp
    · rintro ⟨head, tail, -⟩
      rw [covers_exact] at head
      rw [← head, found_nil.mp tail] at split
      exact levels_eq_empty split
  | cons w wildcard ih =>
    obtain ⟨l, ls, wsplit⟩ := List.exists_cons_of_ne_nil (levels_ne_nil wildcard)
    cases topic with
    | nil =>
      rw [levels_nil]
      rcases pattern_cases wsplit valid with ⟨rfl, ps, -⟩ | ⟨rfl, ps⟩ | ⟨rfl, -, ps, -⟩ |
        ⟨-, hash, -, ps, -⟩
      · rw [ps, found_empty (by simp)]
        simp [matchLoop, pattern, levels_ne_nil]
      · rw [ps]
        simp [matchLoop]
      · rw [ps, found_empty (by simp)]
        simp [matchLoop]
      · rw [ps, found_empty (by simp)]
        simp [matchLoop, hash]
    | cons t topic =>
      obtain ⟨m, ms, split⟩ := List.exists_cons_of_ne_nil (levels_ne_nil (t :: topic))
      have inner : pattern wildcard = levelOf l :: ls.map levelOf := by simp [pattern, wsplit]
      rcases pattern_cases wsplit valid with ⟨rfl, ps, more⟩ | ⟨rfl, ps⟩ | ⟨rfl, rfl, ps, more⟩ |
        ⟨sep, hash, plus, ps, literal, more⟩
      · by_cases same : t = '/'
        · subst same
          rw [ps, levels_sep, found_cons (by simp), ← ih topic more]
          simp [matchLoop, levels_ne_nil]
        · obtain ⟨n, ns, tsplit⟩ := List.exists_cons_of_ne_nil (levels_ne_nil topic)
          rw [ps, levels_char same tsplit, found_cons (by simp)]
          simp [matchLoop, same]
      · rw [ps]
        simp [matchLoop]
      · have skip := ih (skipLevel (t :: topic)) more
        rw [inner, levels_skipLevel split, show levelOf [] = .exact [] from rfl,
          found_cons (by simp)] at skip
        have final : ¬ (m = [] ∧ ms = []) := by
          rintro ⟨rfl, rfl⟩
          simpa using levels_eq_empty split
        simp only [matchLoop, if_true, skip, ps, split, found_cons (show Level.any ≠ .rest by simp),
          covers_exact, covers_any]
        grind
      · by_cases same : t = w
        · subst same
          obtain ⟨n, ns, tsplit⟩ := List.exists_cons_of_ne_nil (levels_ne_nil topic)
          have step := ih topic more
          rw [inner, literal, tsplit, found_cons (by simp)] at step
          rw [ps, levels_char sep tsplit, found_cons (by simp)]
          simpa [matchLoop, hash, plus] using step
        · rw [ps, split, found_cons (by simp), covers_exact]
          have apart : w :: l ≠ m := by
            rintro rfl
            exact same (levels_head split)
          simp [matchLoop, hash, plus, same, apart]

theorem topicMatchesWildcard_iff_found {topic wildcard : CStr} (valid : ValidFilter wildcard) :
    topicMatchesWildcard topic wildcard = true ↔
      Found (pattern wildcard.chars) (levels topic.chars) := by
  unfold topicMatchesWildcard
  split
  · next all =>
    have rest : pattern ['#'] = [.rest] := by decide
    rw [all, rest]
    simp
  · exact matchLoop_iff_found _ _ valid

/-- The matcher reads a filter the MQTT way exactly where nothing is overlooked. -/
theorem topicMatchesWildcard_mqtt (topic wildcard : CStr) (valid : ValidFilter wildcard) :
    (topicMatchesWildcard topic wildcard = true ↔ LevelMatch topic wildcard) ↔
      ¬ Overlooked (pattern wildcard.chars) (levels topic.chars) := by
  have missed : Overlooked (pattern wildcard.chars) (levels topic.chars) →
      Matches (pattern wildcard.chars) (levels topic.chars) :=
    overlooked_matches (rest_not_mem_dropLast valid)
  rw [topicMatchesWildcard_iff_found valid, Found, LevelMatch]
  grind

theorem topicMatchesWildcard_mqtt_sensor :
    (topicMatchesWildcard (.lit "sensor//temp") (.lit "sensor/+/#") = true ↔
      LevelMatch (.lit "sensor//temp") (.lit "sensor/+/#")) ↔
    ¬ Overlooked (pattern (CStr.lit "sensor/+/#").chars)
      (levels (CStr.lit "sensor//temp").chars) :=
  topicMatchesWildcard_mqtt _ _ (by decide)

theorem topicMatchesWildcard_misses_parent :
    ValidFilter (.lit "sensor/#") ∧
      ¬ (topicMatchesWildcard (.lit "sensor") (.lit "sensor/#") = true ↔
        LevelMatch (.lit "sensor") (.lit "sensor/#")) := by
  decide

end Cpm.Mqtt
