import Cpm.Utils.Query

/-! The numbers that are read from query parameters. -/
namespace Cpm

open Lib

def ownText (url name : CStr) : Option (List Char) :=
  (lookup url.chars name.chars).map fun value => (valueText url value).1

def readText (url name : CStr) : Option (List Char) :=
  (getParam url name).map fun value => (valueText url value).1

/-- A function gives the number of the parameter's text if that is a numeral in the range. -/
def ReadsNumber (result : Option Nat) (max : Nat) (url name : CStr) : Prop :=
  ∀ v, result = some v ↔
    ∃ text, ownText url name = some text ∧ CStr.Numeral text v ∧ v ≤ max

/-- What the conversion makes of a text, unless an earlier ERANGE is taken for its own. -/
def Accepted (errno : Int) (max : Nat) (text : List Char) (v : Nat) : Prop :=
  CStr.Spelling text v ∧ v ≤ max ∧ ¬ (v = CStr.uintmaxMax ∧ errno = erange)

/-- Where `get_param` finds the parameter, no text that is accepted has blanks or a sign, and an
earlier ERANGE does not meet the greatest number. A value that is cut off at a '#' is no numeral in
the range. Where the name is hidden, the other text is accepted as the number, if any, of the
parameter's own text. -/
structure ReadsRight (errno : Int) (max : Nat) (url name : CStr) : Prop where
  bare : Unambiguous url.chars name.chars → ∀ text v, ownText url name = some text →
    Accepted errno max text v → ∀ c ∈ text, c.isDigit = true
  fresh : Unambiguous url.chars name.chars → ∀ text, ownText url name = some text →
    CStr.Numeral text CStr.uintmaxMax → CStr.uintmaxMax ≤ max → errno ≠ erange
  cutOff : Apart url.chars name.chars → ¬ Unambiguous url.chars name.chars →
    ∀ text v, ownText url name = some text → CStr.Numeral text v → max < v
  hidden : ¬ Apart url.chars name.chars → ∀ v,
    (∃ text, readText url name = some text ∧ Accepted errno max text v) ↔
      ∃ text, ownText url name = some text ∧ CStr.Numeral text v ∧ v ≤ max

theorem getParam_value {url name : CStr} {value : ParamValue}
    (found : getParam url name = some value) : ∃ p, value = valueBehind url.chars p := by
  simp only [getParam] at found
  split at found
  · cases found
  · split at found
    · cases found
    · split at found
      · cases found
      · split at found
        · cases found
        · exact ⟨_, (Option.some.inj found).symm⟩

theorem valueText_equals {url : CStr} {p : Nat} (equals : url.chars[p]? = some '=') :
    valueText url (valueBehind url.chars p) =
      ((url.chars.drop (p + 1)).takeWhile (· != '&'), (url.chars.drop (p + 1)).dropWhile (· != '&')) := by
  have pieces := List.takeWhile_append_dropWhile (p := (· != '&')) (l := url.chars.drop (p + 1))
  rw [valueBehind, if_pos equals]
  simp only [valueText, CStr.drop]
  nth_rewrite 2 4 [← pieces]
  rw [List.take_left, List.drop_left]

theorem value_ends {url name : CStr} {value : ParamValue} (found : getParam url name = some value)
    (some : value.len ≠ 0) : (valueText url value).1.length = value.len ∧
      (valueText url value).2.head?.any Char.isDigit = false := by
  obtain ⟨p, rfl⟩ := getParam_value found
  by_cases equals : url.chars[p]? = .some '='
  · rw [valueText_equals equals]
    refine ⟨by rw [valueBehind, if_pos equals], ?_⟩
    rcases dropWhile_stops '&' (url.chars.drop (p + 1)) with none | ⟨rest, stopped⟩
    · rw [none]
      rfl
    · rw [stopped]
      rfl
  · rw [valueBehind, if_neg equals] at some
    exact absurd rfl some

theorem cutOff_refused {url name : CStr} (proper : Proper name.chars)
    (apart : Apart url.chars name.chars) (ambiguous : ¬ Unambiguous url.chars name.chars)
    {errno : Int} {max v : Nat} {text : List Char} (read : readText url name = some text) :
    ¬ Accepted errno max text v := by
  obtain ⟨p, found, equals, hash⟩ := getParam_takes_hash proper apart ambiguous
  rw [readText, found, Option.map_some, valueText_equals equals] at read
  obtain rfl := Option.some.inj read
  rintro ⟨spelling, -⟩
  exact absurd (spelling.chars '#' hash) (by decide)

theorem uintmax_iff (errno : Int) (url name : CStr) (v : Nat) :
    neuHttpGetParamUintmax errno url name = some v ↔
      ∃ text, readText url name = some text ∧ Accepted errno CStr.uintmaxMax text v := by
  rw [neuHttpGetParamUintmax, readText]
  cases found : getParam url name with
  | none => simp
  | some value =>
    have whole : (valueText url value).1 ++ (valueText url value).2 =
        (url.drop value.start).chars := List.take_append_drop _ _
    by_cases empty : value.len = 0
    · have nothing : (valueText url value).1 = [] := by simp [valueText, empty]
      refine iff_of_false (by simp [empty]) ?_
      rintro ⟨text, same, spelling, -⟩
      exact spelling.nonempty ((Option.some.inj same).symm.trans nothing)
    · obtain ⟨length, other⟩ := value_ends found empty
      have nonempty : (valueText url value).1 ≠ [] := by
        intro nothing
        exact empty (by rw [← length, nothing, List.length_nil])
      have read := CStr.strtoumax_iff nonempty other v
      rw [whole, length] at read
      simp only [empty, if_false, Option.map_some, Option.some.injEq, exists_eq_left', Accepted, ← read]
      have range := @CStr.strtoumax_outOfRange (url.drop value.start).chars
      generalize CStr.strtoumax (url.drop value.start).chars = result at range ⊢
      obtain ⟨number, stop, outOfRange⟩ := result
      cases outOfRange with
      | true =>
        have greatest : number = CStr.uintmaxMax := range rfl
        simp [greatest]
      | false =>
        simp only [Bool.false_eq_true, if_false, ne_eq, decide_not, Bool.or_eq_true, Bool.and_eq_true,
          decide_eq_true_eq, Bool.not_eq_true', decide_eq_false_iff_not, Option.ite_none_left_eq_some,
          not_or, not_and, not_lt, Decidable.not_not, Option.some.injEq, CStr.Conversion.mk.injEq,
          and_true]
        constructor
        · rintro ⟨⟨⟨fresh, small⟩, rfl⟩, rfl⟩
          exact ⟨⟨rfl, rfl⟩, small, fresh⟩
        · rintro ⟨⟨rfl, rfl⟩, small, fresh⟩
          exact ⟨⟨⟨fresh, small⟩, rfl⟩, rfl⟩

theorem narrow_iff {errno : Int} {max : Nat} {url name : CStr} (narrow : max ≤ CStr.uintmaxMax)
    {result : Option Nat}
    (checked : result = match neuHttpGetParamUintmax errno url name with
      | none => none
      | some val => if max < val then none else some val) (v : Nat) :
    result = some v ↔ ∃ text, readText url name = some text ∧ Accepted errno max text v := by
  have wide := uintmax_iff errno url name v
  have same : result = some v ↔ neuHttpGetParamUintmax errno url name = some v ∧ v ≤ max := by
    rw [checked]
    cases neuHttpGetParamUintmax errno url name with
    | none => simp
    | some val =>
      simp only [Option.ite_none_left_eq_some, not_lt, Option.some.injEq]
      constructor
      · rintro ⟨small, rfl⟩
        exact ⟨rfl, small⟩
      · rintro ⟨rfl, small⟩
        exact ⟨small, rfl⟩
  rw [same, wide]
  constructor
  · rintro ⟨⟨text, read, spelling, -, fresh⟩, small⟩
    exact ⟨text, read, spelling, small, fresh⟩
  · rintro ⟨text, read, spelling, small, fresh⟩
    exact ⟨⟨text, read, spelling, Nat.le_trans small narrow, fresh⟩, small⟩

section
variable {errno : Int} {max : Nat} {url name : CStr} (proper : Proper name.chars)
  {result : Option Nat}
  (gives : ∀ v, result = some v ↔
    ∃ text, readText url name = some text ∧ Accepted errno max text v)
include proper gives

theorem reads_found (narrow : max ≤ CStr.uintmaxMax) (found : Unambiguous url.chars name.chars) :
    ReadsNumber result max url name ↔ ReadsRight errno max url name := by
  have same : readText url name = ownText url name := by
    rw [readText, ownText, (getParam_lookup_iff url name proper).mpr found]
  rw [same] at gives
  constructor
  · intro reads
    refine ⟨fun _ text v own accepted => ?_, fun _ text own number large stale => ?_,
      fun _ other => absurd found other, fun other => absurd found.apart other⟩
    · obtain ⟨text', own', number, -⟩ := (reads v).mp ((gives v).mpr ⟨text, own, accepted⟩)
      obtain rfl := Option.some.inj (own.symm.trans own')
      exact number.2.1
    · obtain ⟨_, -, -, -, fresh⟩ := (gives _).mp ((reads _).mpr ⟨text, own, number, large⟩)
      exact fresh ⟨rfl, stale⟩
  · intro right v
    rw [gives]
    refine exists_congr fun text => and_congr_right fun own => ?_
    constructor
    · intro accepted
      have digits := right.bare found text v own accepted
      exact ⟨((CStr.spelling_digits digits v).mp accepted.1).1, accepted.2.1⟩
    · rintro ⟨number, small⟩
      refine ⟨(CStr.spelling_digits number.2.1 v).mpr ⟨number, Nat.le_trans small narrow⟩, small, ?_⟩
      rintro ⟨rfl, stale⟩
      exact right.fresh found text own number small stale

theorem reads_cutOff (apart : Apart url.chars name.chars)
    (ambiguous : ¬ Unambiguous url.chars name.chars) :
    ReadsNumber result max url name ↔ ReadsRight errno max url name := by
  have nothing : ∀ v, result ≠ some v := by
    intro v read
    obtain ⟨text, read, accepted⟩ := (gives v).mp read
    exact cutOff_refused proper apart ambiguous read accepted
  constructor
  · intro reads
    refine ⟨fun clear => absurd clear ambiguous, fun clear => absurd clear ambiguous,
      fun _ _ text v own number => ?_, fun other => absurd apart other⟩
    by_contra small
    exact nothing v ((reads v).mpr ⟨text, own, number, Nat.le_of_not_lt small⟩)
  · intro right v
    refine iff_of_false (nothing v) ?_
    rintro ⟨text, own, number, small⟩
    exact Nat.not_le_of_lt (right.cutOff apart ambiguous text v own number) small

theorem readsNumber_iff (narrow : max ≤ CStr.uintmaxMax) :
    ReadsNumber result max url name ↔ ReadsRight errno max url name := by
  by_cases apart : Apart url.chars name.chars
  · by_cases found : Unambiguous url.chars name.chars
    · exact reads_found proper gives narrow found
    · exact reads_cutOff proper gives apart found
  · have ambiguous : ¬ Unambiguous url.chars name.chars := fun clear => apart clear.apart
    constructor
    · intro reads
      exact ⟨fun clear => absurd clear ambiguous, fun clear => absurd clear ambiguous,
        fun clear => absurd clear apart, fun _ v => (gives v).symm.trans (reads v)⟩
    · intro right v
      exact (gives v).trans (right.hidden apart v)

end

theorem numeric_params (errno : Int) (url name : CStr) (proper : Proper name.chars) :
    (ReadsNumber (neuHttpGetParamUintmax errno url name) CStr.uintmaxMax url name ↔
      ReadsRight errno CStr.uintmaxMax url name) ∧
    (ReadsNumber (neuHttpGetParamUint64 errno url name) uint64Max url name ↔
      ReadsRight errno uint64Max url name) ∧
    (ReadsNumber (neuHttpGetParamUint32 errno url name) uint32Max url name ↔
      ReadsRight errno uint32Max url name) := by
  exact ⟨readsNumber_iff proper (uintmax_iff errno url name) (Nat.le_refl _),
    readsNumber_iff proper (narrow_iff (by decide) rfl) (by decide),
    readsNumber_iff proper (narrow_iff (by decide) rfl) (by decide)⟩

theorem numeric_params_five :
    ReadsNumber (neuHttpGetParamUint32 0 (.lit "/?n=5") (.lit "n")) uint32Max (.lit "/?n=5") (.lit "n") ↔
      ReadsRight 0 uint32Max (.lit "/?n=5") (.lit "n") :=
  (numeric_params 0 _ _ ((proper_iff _).mpr (by decide))).2.2

/-- A minus wraps around, here even into the range of the narrow type. -/
theorem numeric_params_minus :
    neuHttpGetParamUint32 0 (.lit "/?n=-18446744073709551615") (.lit "n") = some 1 ∧
    ¬ ReadsNumber (neuHttpGetParamUint32 0 (.lit "/?n=-18446744073709551615") (.lit "n")) uint32Max
      (.lit "/?n=-18446744073709551615") (.lit "n") ∧
    neuHttpGetParamUintmax erange (.lit "/?n=18446744073709551615") (.lit "n") = none := by
  have one : neuHttpGetParamUint32 0 (.lit "/?n=-18446744073709551615") (.lit "n") = some 1 := by
    decide
  refine ⟨one, fun reads => ?_, by decide⟩
  obtain ⟨text, own, number, -⟩ := (reads 1).mp one
  have text' : ownText (.lit "/?n=-18446744073709551615") (.lit "n") =
      some "-18446744073709551615".toList := by decide
  obtain rfl := Option.some.inj (own.symm.trans text')
  exact absurd (number.2.1 '-' (by decide)) (by decide)

end Cpm
