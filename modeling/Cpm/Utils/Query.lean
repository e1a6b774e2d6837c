import Cpm.Utils.Http

/-! The query of a URL and its parameters, and when `get_param` finds the right one. -/
namespace Cpm

open Lib

/-- The text after the first '?' and before the first '#'. -/
def queryText (url : List Char) : Option (List Char) :=
  ((url.takeWhile (· != '#')).dropWhile (· != '?')).tail?

def queryStart (url : List Char) : Nat := (url.takeWhile (· != '?')).length + 1

def params (url : List Char) : List (List Char) :=
  match queryText url with
  | none => []
  | some query => query.splitOn '&'

/-- Name and value are separated by the first '='. -/
def paramName (param : List Char) : List Char := param.takeWhile (· != '=')

/-- The first parameter with the name, and where it begins. -/
def firstNamed (name : List Char) : Nat → List (List Char) → Option (Nat × List Char)
  | _, [] => none
  | start, param :: params =>
    if paramName param = name then some (start, param)
    else firstNamed name (start + param.length + 1) params

/-- Without an '=' the value is empty and stands behind the name. -/
def paramValueOf (start : Nat) (param : List Char) : ParamValue :=
  let behind := (paramName param).length
  if '=' ∈ param then ⟨start + behind + 1, param.length - behind - 1⟩ else ⟨start + behind, 0⟩

def lookup (url name : List Char) : Option ParamValue :=
  (firstNamed name (queryStart url) (params url)).map fun found => paramValueOf found.1 found.2

/-- The value of the first parameter with the name is found, and nothing if there is none. -/
def Finds (url name : CStr) : Prop :=
  getParam url name = lookup url.chars name.chars ∧
    (getParam url name = none ↔ ∀ param ∈ params url.chars, paramName param ≠ name.chars)

structure Proper (name : List Char) : Prop where
  nonempty : name ≠ []
  plain : ∀ c ∈ name, c ∉ paramReserved

theorem proper_iff (name : CStr) : Proper name.chars ↔
    (name.strlen = 0 || name.chars.any (· ∈ paramReserved)) = false := by
  constructor
  · intro proper
    simpa [CStr.strlen, proper.nonempty] using proper.plain
  · intro accepted
    simp only [Bool.or_eq_false_iff, decide_eq_false_iff_not, List.any_eq_false,
      decide_eq_true_eq] at accepted
    exact ⟨fun empty => accepted.1 (List.length_eq_zero_iff.mpr empty), accepted.2⟩

/-- In the parameter there is a '?', behind it the name, and then the end or an '='. -/
def Hidden (name param : List Char) : Prop :=
  ∃ front rest, param = front ++ '?' :: (name ++ rest) ∧ (rest = [] ∨ rest.head? = some '=')

/-- No parameter in front of the named one hides the name. -/
def Apart (url name : List Char) : Prop :=
  ∀ param ∈ (params url).takeWhile (paramName · != name), ¬ Hidden name param

/-- The name is not hidden, and the value of the parameter does not end at a '#'. -/
structure Unambiguous (url name : List Char) : Prop where
  apart : Apart url name
  ended : ∀ param, (params url).dropWhile (paramName · != name) = [param] → '=' ∈ param →
    '#' ∉ url

def NameEnds (rest : List Char) : Prop :=
  rest.head? = none ∨ rest.head? = some '&' ∨ rest.head? = some '=' ∨ rest.head? = some '#'

def Marked (text name : List Char) (p : Nat) : Prop :=
  ∃ front sep rest, text = front ++ sep :: (name ++ rest) ∧ p = front.length + 1 ∧
    (sep = '?' ∨ sep = '&') ∧ NameEnds rest

def ParamFollows (more : List Char) : Prop :=
  more = [] ∨ more.head? = some '&' ∨ more.head? = some '#'

def PlainParam (param : List Char) : Prop := '&' ∉ param ∧ '#' ∉ param

theorem PlainParam.suffix {param rest : List Char} (plain : PlainParam param)
    (behind : rest <:+ param) :
    PlainParam rest :=
  ⟨fun amp => plain.1 (behind.mem amp), fun hash => plain.2 (behind.mem hash)⟩

def spread (sep : Char) : List (List Char) → List Char → List Char
  | [], tail => tail
  | param :: params, tail => sep :: (param ++ spread '&' params tail)

theorem firstNamed_none_iff (name : List Char) (start : Nat) (params : List (List Char)) :
    firstNamed name start params = none ↔ ∀ param ∈ params, paramName param ≠ name := by
  induction params generalizing start with
  | nil => simp [firstNamed]
  | cons param params ih =>
    rw [firstNamed, List.forall_mem_cons]
    by_cases named : paramName param = name
    · simp [named]
    · rw [if_neg named, ih, and_iff_right named]

theorem lookup_none_iff (url name : List Char) :
    lookup url name = none ↔ ∀ param ∈ params url, paramName param ≠ name := by
  rw [lookup, Option.map_eq_none_iff, firstNamed_none_iff]

theorem takeWhile_free (c : Char) (text : List Char) : c ∉ text.takeWhile (· != c) :=
  fun inside => by simpa using List.mem_takeWhile_imp inside

theorem dropWhile_stops (c : Char) (text : List Char) :
    text.dropWhile (· != c) = [] ∨ ∃ rest, text.dropWhile (· != c) = c :: rest := by
  cases behind : text.dropWhile (· != c) with
  | nil => exact .inl rfl
  | cons d rest =>
    have some : text.dropWhile (· != c) ≠ [] := by simp [behind]
    have stopped := List.head_dropWhile_not (· != c) some
    simp only [behind, List.head_cons, bne_eq_false_iff_eq] at stopped
    exact .inr ⟨rest, by rw [stopped]⟩

theorem split_behind {front rest between more : List Char} {c : Char}
    (same : front ++ rest = between ++ c :: more) (plain : c ∉ front) :
    ∃ inner, between = front ++ inner ∧ rest = inner ++ c :: more := by
  rcases List.append_eq_append_iff.mp same with ⟨inner, longer, behind⟩ | ⟨inner, shorter, behind⟩
  · exact ⟨inner, longer, behind⟩
  · cases inner with
    | nil => exact ⟨[], by simpa using shorter.symm, by simpa using behind.symm⟩
    | cons d inner =>
      obtain ⟨rfl, -⟩ := List.cons.inj behind
      exact absurd (shorter ▸ List.mem_append_right _ List.mem_cons_self) plain

theorem getElem_behind {text name rest : List Char} {p : Nat} (here : text.drop p = name ++ rest) :
    text[p + name.length]? = rest.head? := by
  rw [← List.head?_drop, ← List.drop_drop, here, List.drop_left]

theorem delimited_iff {text name rest : List Char} {p : Nat} (here : text.drop p = name ++ rest) :
    delimited text name p = true ↔ (text[p - 1]? = some '?' ∨ text[p - 1]? = some '&') ∧
        NameEnds rest := by
  simp [delimited, getElem_behind here, NameEnds, or_assoc]

theorem spread_follows {tail : List Char} (fragment : tail = [] ∨ tail.head? = some '#')
    (params : List (List Char)) : ParamFollows (spread '&' params tail) := by
  cases params with
  | nil => exact fragment.imp id .inr
  | cons param params => exact .inr (.inl rfl)

section
variable {name : List Char} (proper : Proper name)
include proper

theorem Proper.separator {c : Char} (separator : c = '?' ∨ c = '&') : c ∉ name := by
  intro inside
  apply proper.plain c inside
  rcases separator with rfl | rfl <;> simp [paramReserved]

theorem marked_iff (text : List Char) (p : Nat) :
    name <+: text.drop p ∧ delimited text name p = true ↔ Marked text name p := by
  constructor
  · rintro ⟨⟨rest, here⟩, test⟩
    obtain ⟨front, ends⟩ := (delimited_iff here.symm).mp test
    obtain ⟨sep, found, separator⟩ : ∃ sep, text[p - 1]? = some sep ∧ (sep = '?' ∨ sep = '&') := by
      rcases front with found | found
      · exact ⟨_, found, .inl rfl⟩
      · exact ⟨_, found, .inr rfl⟩
    cases p with
    | zero =>
      -- the text would begin with the name, and the name with a separator
      obtain ⟨c, more, rfl⟩ := List.exists_cons_of_ne_nil proper.nonempty
      have same : c = sep := by
        have begins : text = c :: more ++ rest := here.symm
        simpa [begins] using found
      exact absurd (same ▸ List.mem_cons_self) (proper.separator separator)
    | succ q =>
      obtain ⟨bound, rfl⟩ := List.getElem?_eq_some_iff.mp found
      refine ⟨text.take q, _, rest, ?_, ?_, separator, ends⟩
      · rw [here]
        simp
      · rw [List.length_take_of_le (show q ≤ text.length from Nat.le_of_lt bound)]
  · rintro ⟨front, sep, rest, rfl, rfl, separator, ends⟩
    have here : (front ++ sep :: (name ++ rest)).drop (front.length + 1) = name ++ rest := by simp
    refine ⟨⟨rest, here.symm⟩, (delimited_iff here).mpr ⟨?_, ends⟩⟩
    simpa using separator

/-- A mark is not inside an occurrence of the name, as a name contains no separator. -/
theorem marked_apart {text : List Char} {i j : Nat} (here : name <+: text.drop i)
    (there : Marked text name j) (less : i < j) : i + name.length < j := by
  obtain ⟨rest, here⟩ := here
  obtain ⟨front, sep, more, rfl, rfl, separator, -⟩ := there
  rw [List.drop_append_of_le_length (by omega)] at here
  obtain ⟨between, longer, -⟩ := split_behind here (proper.separator separator)
  have lengths := congrArg List.length longer
  rw [List.length_drop, List.length_append] at lengths
  omega

theorem findName_first (text : List Char) (fuel start : Nat) (enough : text.length < start + fuel) :
    First (fun p => start ≤ p ∧ Marked text name p)
      (findName text name fuel (strstr text name start)) := by
  have occurs {p : Nat} (there : Marked text name p) := (marked_iff proper text p).mpr there
  have first := strstr_first text name start
  induction fuel generalizing start with
  | zero =>
    rintro p ⟨later, front, sep, rest, rfl, rfl, -⟩
    simp at enough
    omega
  | succ fuel ih =>
    cases hit : strstr text name start with
    | none =>
      rw [hit] at first
      exact fun p there => first p ⟨there.1, (occurs there.2).1⟩
    | some p =>
      rw [hit] at first
      rw [findName]
      by_cases test : delimited text name p = true
      · rw [if_pos test]
        refine ⟨⟨first.1.1, (marked_iff proper text p).mp ⟨first.1.2, test⟩⟩, fun q less there => ?_⟩
        exact first.2 q less ⟨there.1, (occurs there.2).1⟩
      · rw [if_neg test]
        have positive : 0 < name.length := List.length_pos_iff.mpr proper.nonempty
        have step : start ≤ p := first.1.1
        have further := ih (p + name.length) (by omega) (strstr_first text name _)
        refine (First.congr_iff fun q => and_congr_left fun marked =>
          ⟨fun later => by omega, ?_⟩).mp further
        -- a mark at or behind `start` is not before, not at and not inside this occurrence
        intro late
        rcases Nat.lt_trichotomy q p with before | rfl | behind
        · exact absurd ⟨late, (occurs marked).1⟩ (first.2 q before)
        · exact absurd (occurs marked).2 test
        · exact Nat.le_of_lt (marked_apart proper first.1.2 marked behind)

theorem named_iff (param : List Char) : paramName param = name ↔
    ∃ inner, param = name ++ inner ∧ (inner = [] ∨ inner.head? = some '=') := by
  constructor
  · rintro rfl
    refine ⟨param.dropWhile (· != '='), List.takeWhile_append_dropWhile.symm, ?_⟩
    exact (dropWhile_stops '=' param).imp id fun ⟨rest, stopped⟩ => by rw [stopped, List.head?_cons]
  · have before : ∀ c ∈ name, (c != '=') = true := fun c inside => by
      have other := proper.plain c inside
      simp only [paramReserved, List.mem_cons, not_or] at other
      simpa using other.2.2.1
    rintro ⟨inner, rfl, none | equals⟩
    · simpa [none, paramName] using before
    · obtain ⟨more, rfl⟩ : ∃ more, inner = '=' :: more := List.head?_eq_some_iff.mp equals
      rw [paramName, List.takeWhile_append_of_pos before]
      simp

theorem name_inside {param more rest : List Char} (follows : ParamFollows more)
    (same : name ++ rest = param ++ more) : ∃ inner, param = name ++ inner ∧ rest = inner ++ more := by
  cases more with
  | nil => exact ⟨rest, by simpa using same.symm, by simp⟩
  | cons c more =>
    refine split_behind same fun inside => proper.plain c inside ?_
    rcases follows with empty | amp | hash
    · exact absurd empty (List.cons_ne_nil c more)
    · simp [paramReserved, Option.some.inj amp]
    · simp [paramReserved, Option.some.inj hash]

omit proper in
theorem ends_inner {inner more : List Char} (plain : PlainParam inner) (follows : ParamFollows more) :
    NameEnds (inner ++ more) ↔ inner = [] ∨ inner.head? = some '=' := by
  cases inner with
  | nil =>
    rcases follows with rfl | amp | hash
    · simp [NameEnds]
    · simp [NameEnds, amp]
    · simp [NameEnds, hash]
  | cons c inner =>
    have noAmp : c ≠ '&' := fun same => plain.1 (same ▸ List.mem_cons_self)
    have noHash : c ≠ '#' := fun same => plain.2 (same ▸ List.mem_cons_self)
    simp [NameEnds, noAmp, noHash]

theorem marked_named (front : List Char) {sep : Char} {param more : List Char}
    (separator : sep = '?' ∨ sep = '&') (plain : PlainParam param) (named : paramName param = name)
    (follows : ParamFollows more) :
    Marked (front ++ sep :: (param ++ more)) name (front.length + 1) := by
  obtain ⟨inner, rfl, stops⟩ := (named_iff proper param).mp named
  exact ⟨front, sep, inner ++ more, by simp, rfl, separator,
    (ends_inner (plain.suffix ⟨name, rfl⟩) follows).mpr stops⟩

/-- A mark is at the front of a parameter, at a '?' inside it, or behind it. -/
theorem marked_param {sep : Char} {param more : List Char} (separator : sep = '?' ∨ sep = '&')
    (plain : PlainParam param) (follows : ParamFollows more) (p : Nat) :
    Marked (sep :: (param ++ more)) name p ↔
      (p = 1 ∧ paramName param = name) ∨
      (∃ front rest, param = front ++ '?' :: (name ++ rest) ∧
        (rest = [] ∨ rest.head? = some '=') ∧ p = front.length + 2) ∨
      ∃ k, p = param.length + 1 + k ∧ Marked more name k := by
  constructor
  · rintro ⟨front, sep', rest, same, rfl, separator', ends⟩
    cases front with
    | nil =>
      obtain ⟨inner, rfl, rfl⟩ := name_inside proper follows (List.cons.inj same).2.symm
      have stops := (ends_inner (plain.suffix ⟨name, rfl⟩) follows).mp ends
      exact .inl ⟨rfl, (named_iff proper _).mpr ⟨inner, rfl, stops⟩⟩
    | cons first front =>
      have behind : param ++ more = front ++ sep' :: (name ++ rest) := (List.cons.inj same).2
      rcases List.append_eq_append_iff.mp behind with ⟨between, rfl, rfl⟩ | ⟨between, rfl, rest'⟩
      · exact .inr (.inr ⟨between.length + 1, by simp; omega,
          between, sep', rest, rfl, rfl, separator', ends⟩)
      · cases between with
        | nil => exact .inr (.inr ⟨1, by simp, [], sep', rest, rest'.symm, rfl, separator', ends⟩)
        | cons c inner =>
          obtain ⟨rfl, inside⟩ := List.cons.inj rest'
          obtain ⟨rest, rfl, rfl⟩ := name_inside proper follows inside
          have question : sep' = '?' := separator'.resolve_right fun amp =>
            plain.1 (amp ▸ List.mem_append_right _ List.mem_cons_self)
          have suffix : rest <:+ front ++ sep' :: (name ++ rest) := ⟨front ++ sep' :: name, by simp⟩
          exact .inr (.inl ⟨front, rest, by rw [question],
            (ends_inner (plain.suffix suffix) follows).mp ends, rfl⟩)
  · rintro (⟨rfl, named⟩ | ⟨front, rest, rfl, stops, rfl⟩ | ⟨k, rfl, front, sep', rest, rfl, rfl, last⟩)
    · exact marked_named proper [] separator plain named follows
    · have suffix : rest <:+ front ++ '?' :: (name ++ rest) := ⟨front ++ '?' :: name, by simp⟩
      exact ⟨sep :: front, '?', rest ++ more, by simp, rfl, .inl rfl,
        (ends_inner (plain.suffix suffix) follows).mpr stops⟩
    · exact ⟨sep :: (param ++ front), sep', rest, by simp, by simp; omega, last⟩

theorem same_mark {text : List Char} {i j : Nat} (here : Marked text name i)
    (there : Marked text name j) (near : i ≤ j + 1 ∧ j ≤ i + 1) : i = j := by
  have positive : 0 < name.length := List.length_pos_iff.mpr proper.nonempty
  rcases Nat.lt_trichotomy i j with before | same | behind
  · have apart := marked_apart proper ((marked_iff proper text i).mpr here).1 there before
    omega
  · exact same
  · have apart := marked_apart proper ((marked_iff proper text j).mpr there).1 here behind
    omega

omit proper in
theorem firstNamed_shift (n start : Nat) (params : List (List Char)) :
    firstNamed name (n + start) params =
      (firstNamed name start params).map fun found => (n + found.1, found.2) := by
  induction params generalizing start with
  | nil => rfl
  | cons param params ih =>
    rw [firstNamed, firstNamed]
    by_cases named : paramName param = name
    · simp [named]
    · rw [if_neg named, if_neg named, ← ih]
      congr 1
      omega

omit proper in
theorem firstNamed_next {param : List Char} (other : paramName param ≠ name)
    (params : List (List Char)) :
    (firstNamed name 1 (param :: params)).map Prod.fst =
      ((firstNamed name 1 params).map Prod.fst).map (param.length + 1 + ·) := by
  rw [firstNamed, if_neg other, show 1 + param.length + 1 = (param.length + 1) + 1 by omega,
    firstNamed_shift]
  cases firstNamed name 1 params <;> rfl

omit proper in
theorem marked_within {text : List Char} {p : Nat} (there : Marked text name p) :
    0 < p ∧ p + name.length ≤ text.length := by
  obtain ⟨front, sep, rest, rfl, rfl, -⟩ := there
  simp
  omega

theorem hidden_mark {sep : Char} {param more : List Char} (separator : sep = '?' ∨ sep = '&')
    (plain : PlainParam param) (follows : ParamFollows more) (hidden : Hidden name param) :
    ∃ p ≤ param.length, Marked (sep :: (param ++ more)) name p := by
  obtain ⟨front, rest, rfl, stops⟩ := hidden
  refine ⟨front.length + 2, ?_, (marked_param proper separator plain follows _).mpr
    (.inr (.inl ⟨front, rest, rfl, stops, rfl⟩))⟩
  have positive : 0 < name.length := List.length_pos_iff.mpr proper.nonempty
  simp
  omega

theorem later_mark {sep : Char} {param more : List Char} (separator : sep = '?' ∨ sep = '&')
    (plain : PlainParam param) (follows : ParamFollows more) (other : paramName param ≠ name)
    (clear : ¬ Hidden name param) (p : Nat) :
    Marked (sep :: (param ++ more)) name p ↔ ∃ k, p = param.length + 1 + k ∧ Marked more name k := by
  rw [marked_param proper separator plain follows]
  constructor
  · rintro (⟨-, named⟩ | ⟨front, rest, inside, stops, -⟩ | behind)
    · exact absurd named other
    · exact absurd ⟨front, rest, inside, stops⟩ clear
    · exact behind
  · exact fun behind => .inr (.inr behind)

/-- The first mark of the query is the named parameter, unless one in front of it hides the name. -/
theorem first_mark {tail : List Char} (fragment : tail = [] ∨ tail.head? = some '#')
    {sep : Char} (separator : sep = '?' ∨ sep = '&') (params : List (List Char))
    (plain : ∀ param ∈ params, PlainParam param) :
    (∀ param ∈ params.takeWhile (paramName · != name), ¬ Hidden name param) ↔
      First (fun p => p ≤ (spread sep params []).length ∧ Marked (spread sep params tail) name p)
        ((firstNamed name 1 params).map Prod.fst) := by
  induction params generalizing sep with
  | nil =>
    refine ⟨fun _ p there => ?_, fun _ => by simp⟩
    exact absurd (marked_within there.2).1 (by simpa [spread] using there.1)
  | cons param params ih =>
    have head := plain param List.mem_cons_self
    have follows := spread_follows fragment params
    have length : (spread sep (param :: params) []).length =
        param.length + 1 + (spread '&' params []).length := by
      rw [spread, List.length_cons, List.length_append]
      omega
    rw [length]
    by_cases named : paramName param = name
    · have here : (firstNamed name 1 (param :: params)).map Prod.fst = some 1 := by
        simp [firstNamed, named]
      rw [here]
      refine ⟨fun _ => ⟨⟨by omega, marked_named proper [] separator head named follows⟩, ?_⟩,
        by simp [named]⟩
      intro p less there
      have positive := (marked_within there.2).1
      omega
    · rw [firstNamed_next named, List.takeWhile_cons_of_pos (by simpa using named)]
      by_cases hidden : Hidden name param
      · refine iff_of_false (fun apart => apart param List.mem_cons_self hidden) fun first => ?_
        obtain ⟨p, inside, marked⟩ := hidden_mark proper separator head follows hidden
        cases place : (firstNamed name 1 params).map Prod.fst with
        | none =>
          rw [place] at first
          exact first p ⟨by omega, marked⟩
        | some k =>
          rw [place] at first
          have behind : param.length + 1 + k ≤ p := first.le ⟨by omega, marked⟩
          omega
      · have later := later_mark proper separator head follows named hidden
        have early : ∀ p < param.length + 1,
            ¬ (p ≤ param.length + 1 + (spread '&' params []).length ∧
              Marked (spread sep (param :: params) tail) name p) := by
          rintro p less ⟨-, marked⟩
          obtain ⟨k, rfl, -⟩ := (later p).mp marked
          omega
        rw [First.shift_iff early, List.forall_mem_cons, and_iff_right hidden,
          ih (.inr rfl) fun other inside => plain other (List.mem_cons_of_mem _ inside)]
        refine First.congr_iff fun k => and_congr (by omega) ⟨fun marked => ?_, fun marked => ?_⟩
        · exact (later _).mpr ⟨k, rfl, marked⟩
        · obtain ⟨i, same, there⟩ := (later _).mp marked
          rwa [Nat.add_left_cancel same]

omit proper in
theorem firstNamed_some {sep : Char} (separator : sep = '?' ∨ sep = '&') (tail : List Char)
    {params : List (List Char)} {found : Nat × List Char}
    (here : firstNamed name 1 params = some found) :
    ∃ front sep' later, spread sep params tail =
        front ++ sep' :: (found.2 ++ spread '&' later tail) ∧
      (sep' = '?' ∨ sep' = '&') ∧ found.1 = front.length + 1 ∧ paramName found.2 = name ∧
      params.dropWhile (paramName · != name) = found.2 :: later := by
  induction params generalizing sep found with
  | nil => simp [firstNamed] at here
  | cons param params ih =>
    by_cases named : paramName param = name
    · simp only [firstNamed, named, if_true, Option.some.injEq] at here
      subst here
      exact ⟨[], sep, params, rfl, separator, rfl, named, by simp [named]⟩
    · rw [firstNamed, if_neg named, show 1 + param.length + 1 = (param.length + 1) + 1 by omega,
        firstNamed_shift] at here
      obtain ⟨found', here', rfl⟩ := Option.map_eq_some_iff.mp here
      obtain ⟨front, sep', later, text, separator', place, same, rest⟩ := ih (.inr rfl) here'
      refine ⟨sep :: (param ++ front), sep', later, ?_, separator', ?_, same, ?_⟩
      · simp [spread, text]
      · simp only [place, List.length_cons, List.length_append]
        omega
      · rwa [List.dropWhile_cons_of_pos (by simpa using named)]

theorem Proper.noEquals : '=' ∉ name := fun inside => proper.plain _ inside (by simp [paramReserved])

omit proper in
/-- What the scan for the end of a value runs over behind it. -/
theorem scan_behind {tail : List Char} (fragment : tail = [] ∨ tail.head? = some '#')
    (later : List (List Char)) :
    ((spread '&' later tail).takeWhile (· != '&')).length = 0 ↔ (later = [] → tail = []) := by
  cases later with
  | cons param later => simp [spread]
  | nil =>
    rcases fragment with rfl | hash
    · simp [spread]
    · obtain ⟨more, rfl⟩ : ∃ more, tail = '#' :: more := List.head?_eq_some_iff.mp hash
      simp [spread]

theorem named_equals {param : List Char} (named : paramName param = name) (equals : '=' ∈ param) :
    ∃ value, param = name ++ '=' :: value := by
  obtain ⟨inner, rfl, none | begins⟩ := (named_iff proper param).mp named
  · exact absurd (by simpa [none] using equals) proper.noEquals
  · obtain ⟨value, rfl⟩ : ∃ value, inner = '=' :: value := List.head?_eq_some_iff.mp begins
    exact ⟨value, rfl⟩

omit proper in
theorem equals_behind (front : List Char) (sep : Char) (value more : List Char) :
    (front ++ sep :: (name ++ '=' :: value ++ more))[front.length + 1 + name.length]? = some '=' ∧
    (front ++ sep :: (name ++ '=' :: value ++ more)).drop (front.length + 1 + name.length + 1) =
      value ++ more := by
  have here : (front ++ sep :: (name ++ '=' :: value ++ more)).drop (front.length + 1) =
      name ++ ('=' :: value ++ more) := by simp
  refine ⟨getElem_behind here, ?_⟩
  rw [← List.drop_drop, ← List.drop_drop, here, List.drop_left]
  rfl

omit proper in
theorem noAmp_value {value : List Char} (plain : PlainParam (name ++ '=' :: value)) :
    ∀ c ∈ value, (c != '&') = true := by
  have rest : PlainParam value := plain.suffix ⟨name ++ ['='], by simp⟩
  exact fun c there => by simpa using fun same : c = '&' => rest.1 (same ▸ there)

/-- The length is right unless the value is the last one in front of a fragment. -/
theorem valueBehind_eq_iff {front param tail : List Char} {sep : Char} {later : List (List Char)}
    (plain : PlainParam param) (named : paramName param = name)
    (fragment : tail = [] ∨ tail.head? = some '#') :
    valueBehind (front ++ sep :: (param ++ spread '&' later tail)) (front.length + 1 + name.length) =
        paramValueOf (front.length + 1) param ↔
      ('=' ∈ param → later = [] → tail = []) := by
  by_cases inside : '=' ∈ param
  · obtain ⟨value, rfl⟩ := named_equals proper named inside
    obtain ⟨equals, rest⟩ := @equals_behind name front sep value (spread '&' later tail)
    rw [valueBehind, if_pos equals, rest, List.takeWhile_append_of_pos (noAmp_value plain),
      paramValueOf, if_pos inside, named, ← scan_behind fragment later]
    simp only [ParamValue.mk.injEq, List.length_append, List.length_cons, true_and, inside,
      true_imp_iff]
    omega
  · obtain ⟨inner, rfl, rfl | equals⟩ := (named_iff proper param).mp named
    · have here : (front ++ sep :: (name ++ [] ++ spread '&' later tail)).drop (front.length + 1) =
          name ++ spread '&' later tail := by simp
      have other : (spread '&' later tail).head? ≠ some '=' := by
        rcases spread_follows fragment later with none | amp | hash
        · simp [none]
        · simp [amp]
        · simp [hash]
      rw [valueBehind, getElem_behind here, if_neg other, paramValueOf, if_neg inside, named]
      exact iff_of_true rfl fun there => absurd there inside
    · exact absurd (List.mem_append_right _ (List.mem_of_head? equals)) inside

/-- There it takes the '#' with it. -/
theorem value_takes_hash {front param tail : List Char} {sep : Char} (plain : PlainParam param)
    (named : paramName param = name) (equals : '=' ∈ param) (hash : tail.head? = some '#') :
    (front ++ sep :: (param ++ tail))[front.length + 1 + name.length]? = some '=' ∧
    '#' ∈ ((front ++ sep :: (param ++ tail)).drop (front.length + 1 + name.length + 1)).takeWhile
      (· != '&') := by
  obtain ⟨value, rfl⟩ := named_equals proper named equals
  obtain ⟨more, rfl⟩ : ∃ more, tail = '#' :: more := List.head?_eq_some_iff.mp hash
  obtain ⟨there, rest⟩ := @equals_behind name front sep value ('#' :: more)
  refine ⟨there, ?_⟩
  rw [rest, List.takeWhile_append_of_pos (noAmp_value plain)]
  simp

end

structure UrlParts (url query front tail : List Char) : Prop where
  whole : url = front ++ '?' :: (query ++ tail)
  noQuestion : '?' ∉ front
  noHash : '#' ∉ front
  plain : '#' ∉ query
  fragment : tail = [] ∨ tail.head? = some '#'

theorem url_query {url query : List Char} (found : queryText url = some query) :
    ∃ front tail, UrlParts url query front tail := by
  have behind : (url.takeWhile (· != '#')).dropWhile (· != '?') = '?' :: query := by
    rcases dropWhile_stops '?' (url.takeWhile (· != '#')) with none | ⟨rest, stopped⟩
    · simp [queryText, none] at found
    · simpa [queryText, stopped] using found
  have kept : url.takeWhile (· != '#') =
      (url.takeWhile (· != '#')).takeWhile (· != '?') ++ '?' :: query := by
    rw [← behind, List.takeWhile_append_dropWhile]
  have plain := takeWhile_free '#' url
  refine ⟨(url.takeWhile (· != '#')).takeWhile (· != '?'), url.dropWhile (· != '#'), ?_,
    takeWhile_free _ _, fun inside => plain (List.takeWhile_subset _ inside),
      fun inside => plain ?_, ?_⟩
  · rw [← List.cons_append, ← List.append_assoc, ← kept, List.takeWhile_append_dropWhile]
  · rw [kept]
    exact List.mem_append_right _ (List.mem_cons_of_mem _ inside)
  · exact (dropWhile_stops '#' url).imp id fun ⟨rest, stopped⟩ => by rw [stopped, List.head?_cons]

theorem spread_splitOn (sep : Char) (query tail : List Char) :
    spread sep (query.splitOn '&') tail = sep :: (query ++ tail) := by
  induction query generalizing sep with
  | nil => rfl
  | cons c query ih =>
    rw [List.splitOn_cons_eq_if_modifyHead]
    by_cases amp : c = '&'
    · simp [amp, spread, ih]
    · obtain ⟨param, params, split⟩ := List.exists_cons_of_ne_nil (List.splitOn_ne_nil '&' query)
      have rest := ih sep
      rw [split, spread, List.cons.injEq] at rest
      simp [amp, split, spread, rest.2]

theorem splitOn_plain {query param : List Char} (inside : param ∈ query.splitOn '&') :
    '&' ∉ param ∧ param ⊆ query := by
  induction query generalizing param with
  | nil =>
    have empty : param = [] := by simpa using inside
    simp [empty]
  | cons c query ih =>
    have lift {other : List Char} (there : other ∈ query.splitOn '&') :
        '&' ∉ other ∧ other ⊆ c :: query :=
      ⟨(ih there).1, fun _ mem => List.mem_cons_of_mem _ ((ih there).2 mem)⟩
    rw [List.splitOn_cons_eq_if_modifyHead] at inside
    by_cases amp : c = '&'
    · simp only [amp, beq_self_eq_true, if_true, List.mem_cons] at inside
      rcases inside with rfl | there
      · simp
      · exact lift there
    · obtain ⟨first, others, split⟩ := List.exists_cons_of_ne_nil (List.splitOn_ne_nil '&' query)
      have head : first ∈ query.splitOn '&' := by simp [split]
      simp only [beq_iff_eq, amp, if_false, split, List.modifyHead_cons, List.mem_cons] at inside
      rcases inside with rfl | there
      · refine ⟨fun mem => ?_, List.cons_subset_cons c (ih head).2⟩
        exact (List.mem_cons.mp mem).elim (fun same => amp same.symm) (ih head).1
      · exact lift (split ▸ List.mem_cons_of_mem _ there)

theorem idxOf?_behind {front rest : List Char} {c : Char} (plain : c ∉ front) :
    (front ++ c :: rest).idxOf? c = some front.length := by
  rw [List.idxOf?_eq_some_iff]
  refine ⟨by simp, by simp, fun j less => ?_⟩
  rw [List.getElem_append_left less]
  exact fun same => plain (same ▸ List.getElem_mem less)

section
variable {url query front tail : List Char} (parts : UrlParts url query front tail)
include parts

theorem UrlParts.start : url.idxOf? '?' = some front.length := by
  rw [parts.whole, idxOf?_behind parts.noQuestion]

theorem UrlParts.queryStart : queryStart url = front.length + 1 := by
  rw [Cpm.queryStart, parts.whole, List.takeWhile_append_of_pos]
  · simp
  · exact fun c inside => by simpa using fun same : c = '?' => parts.noQuestion (same ▸ inside)

theorem UrlParts.tail_cases : tail = [] ∧ '#' ∉ url ∨ ∃ more, tail = '#' :: more ∧
    url.idxOf? '#' = some (front.length + query.length + 1) := by
  rcases parts.fragment with rfl | hash
  · exact .inl ⟨rfl, by simp [parts.whole, parts.noHash, parts.plain]⟩
  · obtain ⟨more, rfl⟩ : ∃ more, tail = '#' :: more := List.head?_eq_some_iff.mp hash
    have before : '#' ∉ front ++ '?' :: query := by simp [parts.noHash, parts.plain]
    have here := @idxOf?_behind _ more _ before
    rw [List.length_append, List.length_cons, List.append_assoc, List.cons_append] at here
    exact .inr ⟨more, rfl, by rw [parts.whole, here, Nat.add_assoc]⟩

theorem UrlParts.hashless : '#' ∉ url ↔ tail = [] := by
  rcases parts.tail_cases with ⟨rfl, none⟩ | ⟨more, rfl, here⟩
  · exact iff_of_true none rfl
  · refine iff_of_false (fun none => ?_) (List.cons_ne_nil _ _)
    rw [List.idxOf?_eq_none_iff.mpr none] at here
    cases here

theorem UrlParts.params (found : queryText url = some query) :
    ∀ param ∈ params url, PlainParam param := by
  intro param inside
  simp only [Cpm.params, found] at inside
  exact ⟨(splitOn_plain inside).1, fun hash => parts.plain ((splitOn_plain inside).2 hash)⟩

/-- The test for the fragment, for a place in the text behind the '?'. -/
theorem UrlParts.late_iff {p : Nat} (within : p ≤ (query ++ tail).length + 1) :
    (url.idxOf? '#').any (· < front.length + p) = true ↔ ¬ p ≤ query.length + 1 := by
  rcases parts.tail_cases with ⟨rfl, none⟩ | ⟨more, rfl, here⟩
  · rw [List.append_nil] at within
    simp [List.idxOf?_eq_none_iff.mpr none, within]
  · simp only [here, Option.any_some, decide_eq_true_eq]
    omega

end

/-- Of the marks behind the '?' the first one counts, if it is in front of the '#'. -/
theorem getParam_first {url name : CStr} (proper : Proper name.chars) {query front tail : List Char}
    (parts : UrlParts url.chars query front tail) :
    ∃ kept, First (fun p => p ≤ query.length + 1 ∧
        Marked ('?' :: (query ++ tail)) name.chars p) kept ∧
      getParam url name =
        kept.map fun hit => valueBehind url.chars (front.length + hit + name.strlen) := by
  have first := findName_first proper ('?' :: (query ++ tail)) _ 0
    (Nat.lt_of_lt_of_eq (Nat.lt_succ_self _) (Nat.zero_add _).symm)
  rw [First.congr_iff fun p => and_iff_right (Nat.zero_le p)] at first
  refine ⟨_, first.within (query.length + 1), ?_⟩
  have accepted := (proper_iff name).mp proper
  have behind : url.chars.drop front.length = '?' :: (query ++ tail) := by
    rw [parts.whole, List.drop_left]
  simp only [getParam, parts.start, behind, accepted, Bool.false_eq_true, if_false]
  cases found : findName ('?' :: (query ++ tail)) name.chars (('?' :: (query ++ tail)).length + 1)
      (strstr ('?' :: (query ++ tail)) name.chars 0) with
  | none => rfl
  | some hit =>
    rw [found] at first
    have within := (marked_within first.1).2
    rw [List.length_cons] at within
    have late := parts.late_iff (Nat.le_of_add_right_le within)
    by_cases early : hit ≤ query.length + 1
    · simp [late, early, Option.filter_some]
    · simp [late, early, Option.filter_some]

/-- Without a query every '?' is behind the first '#'. -/
theorem getParam_none {url : CStr} (name : CStr) (noQuery : queryText url.chars = none) :
    getParam url name = none := by
  have plain : '?' ∉ url.chars.takeWhile (· != '#') := by
    rcases dropWhile_stops '?' (url.chars.takeWhile (· != '#')) with none | ⟨rest, stopped⟩
    · have kept := List.takeWhile_append_dropWhile (p := (· != '?')) (l := url.chars.takeWhile (· != '#'))
      rw [none, List.append_nil] at kept
      exact kept ▸ takeWhile_free '?' _
    · simp [queryText, stopped] at noQuery
  have kept := List.takeWhile_append_dropWhile (p := (· != '#')) (l := url.chars)
  cases found : url.chars.idxOf? '?' with
  | none => simp [getParam, found]
  | some start =>
    obtain ⟨bound, question, -⟩ := List.idxOf?_eq_some_iff.mp found
    have inside : '?' ∈ url.chars := question ▸ List.getElem_mem bound
    rcases dropWhile_stops '#' url.chars with none | ⟨rest, stopped⟩
    · rw [none, List.append_nil] at kept
      exact absurd (kept.symm ▸ inside) plain
    · rw [stopped] at kept
      have fragment : url.chars.idxOf? '#' = some (url.chars.takeWhile (· != '#')).length := by
        rw [← @idxOf?_behind _ rest _ (takeWhile_free '#' url.chars), kept]
      have behind : (url.chars.takeWhile (· != '#')).length < start := by
        have there : url.chars[start]? = some '?' := List.getElem?_eq_some_iff.mpr ⟨bound, question⟩
        by_contra early
        rw [← kept] at there
        rcases Nat.lt_or_eq_of_le (Nat.le_of_not_lt early) with before | same
        · rw [List.getElem?_append_left before] at there
          exact plain (List.mem_of_getElem? there)
        · rw [same, List.getElem?_append_right (Nat.le_refl _)] at there
          simp at there
      simp only [getParam, found, fragment, Option.any_some, decide_eq_true_eq]
      split
      · rfl
      · split
        · rfl
        · exact if_pos (by omega)

theorem valueBehind_start (url : List Char) (p : Nat) :
    (valueBehind url p).start = p ∨ (valueBehind url p).start = p + 1 := by
  rw [valueBehind]
  split
  · exact .inr rfl
  · exact .inl rfl

theorem paramValueOf_start (start : Nat) (param : List Char) :
    (paramValueOf start param).start = start + (paramName param).length ∨
      (paramValueOf start param).start = start + (paramName param).length + 1 := by
  rw [paramValueOf]
  split
  · exact .inr rfl
  · exact .inl rfl

theorem same_start {text url name param : List Char} (proper : Proper name) {n hit k : Nat}
    (here : Marked text name hit) (there : Marked text name k) (named : paramName param = name)
    (values : valueBehind url (n + hit + name.length) = paramValueOf (n + k) param) : hit = k := by
  refine same_mark proper here there ?_
  have starts := congrArg ParamValue.start values
  have left := valueBehind_start url (n + hit + name.length)
  have right := paramValueOf_start (n + k) param
  rw [named] at right
  omega

theorem ended_iff {name param : List Char} {params later : List (List Char)} {hashless : Prop}
    (rest : params.dropWhile (paramName · != name) = param :: later) :
    (∀ other, params.dropWhile (paramName · != name) = [other] → '=' ∈ other → hashless) ↔
      ('=' ∈ param → later = [] → hashless) := by
  rw [rest]
  constructor
  · intro ends equals last
    exact ends param (by rw [last]) equals
  · intro ends other single equals
    obtain ⟨rfl, last⟩ := List.cons.inj single
    exact ends equals last

section
variable {url name : CStr} (proper : Proper name.chars) {query front tail : List Char}
  (parts : UrlParts url.chars query front tail) (found : queryText url.chars = some query)
include proper parts found

/-- In the text behind the '?' the named parameter is the first mark, if it is not hidden. -/
theorem apart_iff : Apart url.chars name.chars ↔
    First (fun p => p ≤ query.length + 1 ∧ Marked ('?' :: (query ++ tail)) name.chars p)
      ((firstNamed name.chars 1 (params url.chars)).map Prod.fst) := by
  have pieces : params url.chars = query.splitOn '&' := by simp [params, found]
  have clear := first_mark proper parts.fragment (.inl rfl) (params url.chars) (parts.params found)
  rw [pieces, spread_splitOn, spread_splitOn, ← pieces, List.append_nil, List.length_cons] at clear
  exact clear

theorem named_place {named : Nat × List Char}
    (here : firstNamed name.chars 1 (params url.chars) = some named) :
    ∃ before sep later,
      url.chars = (front ++ before) ++ sep :: (named.2 ++ spread '&' later tail) ∧
      front.length + named.1 = (front ++ before).length + 1 ∧
      Marked ('?' :: (query ++ tail)) name.chars named.1 ∧ paramName named.2 = name.chars ∧
      PlainParam named.2 ∧
      (params url.chars).dropWhile (paramName · != name.chars) = named.2 :: later := by
  have pieces : params url.chars = query.splitOn '&' := by simp [params, found]
  obtain ⟨before, sep, later, text, separator, place, same, rest⟩ :=
    firstNamed_some (.inl rfl) tail here
  rw [pieces, spread_splitOn] at text
  have member : named.2 ∈ params url.chars := List.dropWhile_subset _ (rest ▸ List.mem_cons_self)
  have plain := parts.params found named.2 member
  refine ⟨before, sep, later, ?_, ?_, ?_, same, plain, rest⟩
  · rw [parts.whole, text, List.append_assoc]
  · rw [place, List.length_append]
    omega
  · rw [text, place]
    exact marked_named proper before separator plain same (spread_follows parts.fragment later)

theorem parts_lookup_iff :
    getParam url name = lookup url.chars name.chars ↔ Unambiguous url.chars name.chars := by
  obtain ⟨kept, first, result⟩ := getParam_first proper parts
  have clear := apart_iff proper parts found
  rw [result, lookup, parts.queryStart, firstNamed_shift]
  cases here : firstNamed name.chars 1 (params url.chars) with
  | none =>
    rw [here] at clear
    have others := (firstNamed_none_iff _ 1 _).mp here
    have nothing : (params url.chars).dropWhile (paramName · != name.chars) = [] :=
      List.dropWhile_eq_nil_iff.mpr fun param inside => by simpa using others param inside
    constructor
    · intro same
      refine ⟨clear.mpr ?_, by simp [nothing]⟩
      rwa [Option.map_eq_none_iff.mp same] at first
    · intro fits
      rw [first.unique (clear.mp fits.apart)]
      rfl
  | some named =>
    rw [here] at clear
    obtain ⟨before, sep, later, whole, position, marked, same, plain, rest⟩ :=
      named_place proper parts found here
    have value := @valueBehind_eq_iff _ proper (front ++ before) _ tail sep later plain same
      parts.fragment
    rw [← whole, ← position, ← parts.hashless, ← ended_iff rest] at value
    constructor
    · intro agree
      obtain ⟨hit, rfl, values⟩ := Option.map_eq_some_iff.mp agree
      obtain rfl := same_start proper first.1.2 marked same values
      exact ⟨clear.mpr first, value.mp values⟩
    · intro fits
      rw [first.unique (clear.mp fits.apart)]
      exact congrArg some (value.mpr fits.ended)

/-- A value that is found and does not end where it should contains the '#'. -/
theorem parts_takes_hash (apart : Apart url.chars name.chars)
    (ambiguous : ¬ Unambiguous url.chars name.chars) :
    ∃ p, getParam url name = some (valueBehind url.chars p) ∧ url.chars[p]? = some '=' ∧
      '#' ∈ (url.chars.drop (p + 1)).takeWhile (· != '&') := by
  obtain ⟨kept, first, result⟩ := getParam_first proper parts
  obtain rfl := first.unique ((apart_iff proper parts found).mp apart)
  have open' : ¬ ∀ param, (params url.chars).dropWhile (paramName · != name.chars) = [param] →
      '=' ∈ param → '#' ∉ url.chars := fun ended => ambiguous ⟨apart, ended⟩
  cases here : firstNamed name.chars 1 (params url.chars) with
  | none =>
    have others := (firstNamed_none_iff _ 1 _).mp here
    have nothing : (params url.chars).dropWhile (paramName · != name.chars) = [] :=
      List.dropWhile_eq_nil_iff.mpr fun param inside => by simpa using others param inside
    simp [nothing] at open'
  | some named =>
    obtain ⟨before, sep, later, whole, position, -, same, plain, rest⟩ :=
      named_place proper parts found here
    rw [ended_iff rest, parts.hashless] at open'
    push Not at open'
    obtain ⟨equals, rfl, fragment⟩ := open'
    have hash := parts.fragment.resolve_left fragment
    have takes := @value_takes_hash _ proper (front ++ before) _ tail sep plain same equals hash
    rw [spread] at whole
    rw [← whole, ← position] at takes
    rw [here] at result
    exact ⟨_, result, takes⟩

end

theorem getParam_lookup_iff (url name : CStr) (proper : Proper name.chars) :
    getParam url name = lookup url.chars name.chars ↔ Unambiguous url.chars name.chars := by
  cases found : queryText url.chars with
  | none =>
    have none : params url.chars = [] := by simp [params, found]
    refine iff_of_true ?_ ⟨by simp [Apart, none], by simp [none]⟩
    simp [getParam_none name found, lookup, none, firstNamed]
  | some query =>
    obtain ⟨front, tail, parts⟩ := url_query found
    exact parts_lookup_iff proper parts found

theorem getParam_takes_hash {url name : CStr} (proper : Proper name.chars)
    (apart : Apart url.chars name.chars) (ambiguous : ¬ Unambiguous url.chars name.chars) :
    ∃ p, getParam url name = some (valueBehind url.chars p) ∧ url.chars[p]? = some '=' ∧
      '#' ∈ (url.chars.drop (p + 1)).takeWhile (· != '&') := by
  cases found : queryText url.chars with
  | none =>
    have none : params url.chars = [] := by simp [params, found]
    exact absurd ⟨apart, by simp [none]⟩ ambiguous
  | some query =>
    obtain ⟨front, tail, parts⟩ := url_query found
    exact parts_takes_hash proper parts found apart ambiguous

theorem get_param_query (url name : CStr) (proper : Proper name.chars) :
    Finds url name ↔ Unambiguous url.chars name.chars := by
  rw [Finds, ← getParam_lookup_iff url name proper, and_iff_left_iff_imp]
  intro same
  rw [same, lookup_none_iff]

theorem get_param_query_key : Finds (.lit "/?key=val") (.lit "key") ↔
    Unambiguous (CStr.lit "/?key=val").chars (CStr.lit "key").chars :=
  get_param_query _ _ ((proper_iff _).mpr (by decide))

theorem get_param_query_fragment : Proper (CStr.lit "key").chars ∧
    ¬ Finds (.lit "/?key=val#frag") (.lit "key") ∧ ¬ Finds (.lit "/?a=b?key=1&key=2") (.lit "key") ∧
    getParam (.lit "/?key=val#frag") (.lit "key") = some ⟨6, 8⟩ ∧
    getParam (.lit "/?a=b?key=1&key=2") (.lit "key") = some ⟨10, 1⟩ ∧
    lookup (CStr.lit "/?a=b?key=1&key=2").chars (CStr.lit "key").chars = some ⟨16, 1⟩ :=
  ⟨(proper_iff _).mpr (by decide), fun finds => absurd finds.1 (by decide),
    fun finds => absurd finds.1 (by decide), by decide, by decide, by decide⟩

end Cpm
