import Cpm.Utils.Http

/-! Percent-decoding: which inputs `neu_url_decode` reads, and what a small buffer does to the
result. -/
namespace Cpm

open Lib

def isHex (c : Char) : Bool := (hexDigit c).isSome

def hexPair : List Char → Bool
  | x :: y :: _ => isHex x && isHex y
  | _ => false

def goesOn (digit : Char) : List Char → Bool
  | [] => false
  | next :: _ => isHex next || (digit = '0' && (next = 'x' || next = 'X'))

/-- Two characters that are no pair of digits, yet the conversion takes exactly them: a sign and
a digit, a blank and a digit where the number ends, and for glibc the prefix alone. -/
def lenient (lonePrefix : Bool) (behind : List Char) : List Char → Bool
  | x :: y :: rest =>
    ((x = '+' || x = '-') && isHex y) ||
    (CStr.isspace x && isHex y && !goesOn y (rest ++ behind)) ||
    (lonePrefix && x = '0' && (y = 'x' || y = 'X'))
  | _ => false

/-- Every '%' of the input is followed by what is asked for. -/
def Escapes (ok : List Char → Bool) (input : List Char) : Prop :=
  ∀ front rest, input = front ++ '%' :: rest → ok rest = true

/-- The input with '+' replaced by a space and every %XY by the byte XY. -/
def unescape : List Char → List Char
  | [] => []
  | '%' :: x :: y :: rest => toByte (16 * (hexDigit x).getD 0 + (hexDigit y).getD 0) :: unescape rest
  | c :: rest => (if c = '+' then ' ' else c) :: unescape rest

def encode (keep : Char → Bool) (digit : Nat → Char) (bytes : List Char) : List Char :=
  bytes.flatMap fun c =>
    if keep c then [c] else ['%', digit (c.toNat / 16), digit (c.toNat % 16)]

def letThrough (lonePrefix : Bool) (behind rest : List Char) : Bool :=
  hexPair rest || lenient lonePrefix behind rest

/-- The decoder succeeds where every '%' has its digits, with the bytes that the input spells. -/
def Decodes (lonePrefix : Bool) (input behind : List Char) (size : Nat) : Prop :=
  ∀ out, neuUrlDecode lonePrefix (input ++ behind) input.length size = some out ↔
    Escapes hexPair input ∧ out = ⟨(unescape input).length, unescape input ++ ['\x00']⟩

/-- Every '%' has its digits, or one is followed by neither two digits nor a lenient pair. -/
def Strict (lonePrefix : Bool) (input behind : List Char) : Prop :=
  Escapes hexPair input ∨
    ∃ front rest, input = front ++ '%' :: rest ∧ letThrough lonePrefix behind rest = false

/-- The complete decoded form: there is always room in a buffer larger than the input. -/
def decodedForm (lonePrefix : Bool) (input behind : List Char) : Option (List Char) :=
  decodeLoop lonePrefix behind input (input.length + 1)

def Whole (lonePrefix : Bool) (input behind : List Char) (size : Nat) : Prop :=
  ∀ out, neuUrlDecode lonePrefix (input ++ behind) input.length size = some out →
    ∃ form, decodedForm lonePrefix input behind = some form ∧
      out = ⟨form.length, form ++ ['\x00']⟩

def WholeParam (lonePrefix : Bool) (url name : CStr) (size : Nat) : Prop :=
  ∀ out, neuHttpGetParamStr lonePrefix url name size = .ok out →
    ∃ value form, getParam url name = some value ∧
      decodedForm lonePrefix (valueText url value).1 (valueText url value).2 = some form ∧
      out = ⟨form.length, form ++ ['\x00']⟩

/-- A result below the size of the buffer comes with the whole decoded form; where that has no room,
the result is the size. -/
structure DecodeReported (lonePrefix : Bool) (input behind : List Char) (size : Nat) : Prop where
  complete : ∀ out, neuUrlDecode lonePrefix (input ++ behind) input.length size = some out →
    out.count < size → ∃ form, decodedForm lonePrefix input behind = some form ∧
      out = ⟨form.length, form ++ ['\x00']⟩
  overflow : ∀ form, decodedForm lonePrefix input behind = some form → size ≤ form.length →
    neuUrlDecode lonePrefix (input ++ behind) input.length size =
      some ⟨size, form.take (size - 1) ++ ['\x00']⟩

structure ParamReported (lonePrefix : Bool) (url name : CStr) (size : Nat) : Prop where
  complete : ∀ out, neuHttpGetParamStr lonePrefix url name size = .ok out → out.count < size →
    ∃ value form, getParam url name = some value ∧
      decodedForm lonePrefix (valueText url value).1 (valueText url value).2 = some form ∧
      out = ⟨form.length, form ++ ['\x00']⟩
  overflow : ∀ value form, getParam url name = some value →
    decodedForm lonePrefix (valueText url value).1 (valueText url value).2 = some form →
    size ≤ form.length →
    neuHttpGetParamStr lonePrefix url name size = .ok ⟨size, form.take (size - 1) ++ ['\x00']⟩

/-- The input in front of the first '%' that is refused. -/
def cleanPart (lonePrefix : Bool) (behind : List Char) : List Char → List Char
  | [] => []
  | c :: rest =>
    if c = '%' && !letThrough lonePrefix behind rest then []
    else c :: cleanPart lonePrefix behind rest

/-- What stands in front of the first refused '%' leaves room for the terminator: every escape
makes one character of three. -/
def Fits (lonePrefix : Bool) (input behind : List Char) (size : Nat) : Prop :=
  (cleanPart lonePrefix behind input).length <
    size + 2 * (cleanPart lonePrefix behind input).count '%'

def spelled (lonePrefix : Bool) (behind : List Char) : List Char → List Char
  | [] => []
  | '%' :: x :: y :: rest =>
    match scanHex lonePrefix (x :: y :: (rest ++ behind)) with
    | some (value, 2) => toByte value :: spelled lonePrefix behind rest
    | _ => []
  | c :: rest =>
    if c = '%' then [] else (if c = '+' then ' ' else c) :: spelled lonePrefix behind rest

theorem escapes_cons (ok : List Char → Bool) (c : Char) (rest : List Char) :
    Escapes ok (c :: rest) ↔ (c = '%' → ok rest = true) ∧ Escapes ok rest := by
  constructor
  · intro all
    exact ⟨fun same => all [] rest (by rw [same]; rfl),
      fun front more same => all (c :: front) more (by rw [same]; rfl)⟩
  · rintro ⟨head, tail⟩ front more same
    cases front with
    | nil =>
      obtain ⟨rfl, rfl⟩ := List.cons.inj same
      exact head rfl
    | cons d front => exact tail front more (List.cons.inj same).2

@[simp] theorem escapes_nil (ok : List Char → Bool) : Escapes ok [] := by
  intro front rest same
  cases front <;> cases same

theorem hex_ne {c d : Char} (hex : isHex c = true) (other : hexDigit d = none) : c ≠ d := by
  rintro rfl
  simp [isHex, other] at hex

theorem hex_plain {c : Char} (hex : isHex c = true) : CStr.isspace c = false := by
  have above : 48 ≤ c.toNat := by
    by_contra below
    have digit : c.isDigit = false := by
      by_contra inside
      simp only [Char.isDigit, ge_iff_le, UInt32.le_iff_toNat_le, Bool.not_eq_false, Bool.and_eq_true,
        decide_eq_true_eq] at inside
      exact below inside.1
    have lower : ¬ 'a' ≤ c := fun h => below (Nat.le_trans (by decide) (show 97 ≤ c.toNat from h))
    have upper : ¬ 'A' ≤ c := fun h => below (Nat.le_trans (by decide) (show 65 ≤ c.toNat from h))
    simp [isHex, hexDigit, digit, lower, upper] at hex
  have blank : c ≠ ' ' := hex_ne hex (by decide)
  have late : ¬ c ≤ '\r' := fun h => by
    have small : c.toNat ≤ 13 := h
    omega
  simp [CStr.isspace, blank, late]

theorem hexField_digits (lonePrefix : Bool) {x y : Char} {high low : Nat} (rest : List Char)
    (first : hexDigit x = some high) (second : hexDigit y = some low) :
    hexField lonePrefix (x :: y :: rest) = some (16 * (high : Int) + low, 2) := by
  have hexX : isHex x = true := by simp [isHex, first]
  have hexY : isHex y = true := by simp [isHex, second]
  have noPrefix : ¬ (x = '0' && (y = 'x' || y = 'X')) = true := by
    simp [hex_ne hexY (show hexDigit 'x' = none by decide),
      hex_ne hexY (show hexDigit 'X' = none by decide)]
  rw [hexField, if_neg (hex_ne hexX (by decide)), if_neg (hex_ne hexX (by decide)), if_neg noPrefix]
  simp only [first, second]

theorem hexField_two (lonePrefix : Bool) (x y : Char) (rest : List Char) :
    (∃ value, hexField lonePrefix (x :: y :: rest) = some (value, 2)) ↔
      (isHex x = true ∧ isHex y = true) ∨ ((x = '+' ∨ x = '-') ∧ isHex y = true) ∨
        (lonePrefix = true ∧ x = '0' ∧ (y = 'x' ∨ y = 'X')) := by
  rw [hexField]
  by_cases plus : x = '+'
  · subst plus
    cases low : hexDigit y <;> simp [isHex, low, show hexDigit '+' = none by decide]
  by_cases minus : x = '-'
  · subst minus
    cases low : hexDigit y <;> simp [isHex, low, show hexDigit '-' = none by decide]
  by_cases letter : x = '0' ∧ (y = 'x' ∨ y = 'X')
  · obtain ⟨rfl, letter⟩ := letter
    have none : hexDigit y = none := by rcases letter with rfl | rfl <;> decide
    cases lonePrefix <;> simp [letter, isHex, none]
  · cases high : hexDigit x <;> cases low : hexDigit y <;>
      simp [isHex, plus, minus, letter, high, low]

theorem hexField_one (lonePrefix : Bool) (y : Char) (rest : List Char) :
    (∃ value, hexField lonePrefix (y :: rest) = some (value, 1)) ↔
      isHex y = true ∧ goesOn y rest = false := by
  cases rest with
  | nil => simp [hexField, isHex, goesOn, Option.isSome_iff_exists]
  | cons z rest =>
    rw [hexField]
    by_cases plus : y = '+'
    · subst plus
      simp [isHex, show hexDigit '+' = none by decide]
    by_cases minus : y = '-'
    · subst minus
      simp [isHex, show hexDigit '-' = none by decide]
    by_cases letter : y = '0' ∧ (z = 'x' ∨ z = 'X')
    · obtain ⟨rfl, rfl | rfl⟩ := letter
      · cases lonePrefix <;> simp [goesOn]
      · cases lonePrefix <;> simp [goesOn]
    · cases high : hexDigit y <;> cases low : hexDigit z <;>
        simp [isHex, goesOn, plus, minus, letter, high, low]
      simpa using letter

theorem hexField_positive {lonePrefix : Bool} {text : List Char} {field : Int × Nat}
    (here : hexField lonePrefix text = some field) : 0 < field.2 := by
  have scaled {digit : Option Nat} {f : Nat → Int × Nat} (positive : ∀ v, 0 < (f v).2)
      (there : digit.map f = some field) : 0 < field.2 := by
    obtain ⟨v, -, rfl⟩ := Option.map_eq_some_iff.mp there
    exact positive v
  match text with
  | [] => cases here
  | [c] => exact scaled (fun v => by simp) here
  | c :: d :: _ =>
    rw [hexField] at here
    split at here
    · exact scaled (fun v => by simp) here
    · split at here
      · exact scaled (fun v => by simp) here
      · split at here
        · cases lonePrefix <;> cases here
          simp
        · split at here <;> cases here <;> simp

theorem scanHex_iff (lonePrefix : Bool) (behind : List Char) (x y : Char) (rest : List Char) :
    (∃ value, scanHex lonePrefix (x :: y :: (rest ++ behind)) = some (value, 2)) ↔
      letThrough lonePrefix behind (x :: y :: rest) = true := by
  by_cases blank : CStr.isspace x = true
  · have other {c : Char} (plain : CStr.isspace c = false) : x ≠ c := by
      rintro rfl
      simp [plain] at blank
    have noHex : isHex x = false := by
      by_contra hex
      simp [hex_plain (by simpa using hex)] at blank
    have right : letThrough lonePrefix behind (x :: y :: rest) = true ↔
        isHex y = true ∧ goesOn y (rest ++ behind) = false := by
      simp [letThrough, hexPair, lenient, noHex, blank, other (show CStr.isspace '+' = false by decide),
        other (show CStr.isspace '-' = false by decide),
          other (show CStr.isspace '0' = false by decide)]
    rw [right]
    by_cases blanks : CStr.isspace y = true
    · -- two blanks and at least one character of the number
      refine iff_of_false ?_ fun digit => by simp [hex_plain digit.1] at blanks
      rintro ⟨value, taken⟩
      obtain ⟨field, here, whole⟩ := Option.map_eq_some_iff.mp taken
      have positive := hexField_positive here
      simp only [List.takeWhile_cons_of_pos blank, List.takeWhile_cons_of_pos blanks, List.length_cons,
        Prod.mk.injEq] at whole
      omega
    · rw [← hexField_one lonePrefix]
      simp only [scanHex, List.dropWhile_cons_of_pos blank, List.takeWhile_cons_of_pos blank,
        List.dropWhile_cons_of_neg blanks, List.takeWhile_cons_of_neg blanks, List.length_cons,
        List.length_nil, Nat.zero_add, Option.map_eq_some_iff, Prod.mk.injEq]
      constructor
      · rintro ⟨value, field, here, -, count⟩
        exact ⟨field.1, by rw [here, ← show field.2 = 1 by omega]⟩
      · rintro ⟨value, here⟩
        exact ⟨value, _, here, rfl, rfl⟩
  · have field := hexField_two lonePrefix x y (rest ++ behind)
    simp only [scanHex, List.dropWhile_cons_of_neg blank, List.takeWhile_cons_of_neg blank,
      List.length_nil, Nat.zero_add, Option.map_id']
    rw [field]
    simp [letThrough, hexPair, lenient, blank, and_assoc]

/-- The characters of a pair that is let through are not those of the next escape. -/
theorem letThrough_plain {lonePrefix : Bool} {behind rest : List Char} {x y : Char}
    (taken : letThrough lonePrefix behind (x :: y :: rest) = true) : x ≠ '%' ∧ y ≠ '%' := by
  constructor
  · rintro rfl
    simp [letThrough, hexPair, lenient, isHex, show hexDigit '%' = none by decide,
      show CStr.isspace '%' = false by decide] at taken
  · rintro rfl
    simp [letThrough, hexPair, lenient, isHex, show hexDigit '%' = none by decide] at taken

section
variable (lonePrefix : Bool) (behind : List Char)

theorem escapes_pair {x y : Char} {rest : List Char}
    (taken : letThrough lonePrefix behind (x :: y :: rest) = true) (ok : List Char → Bool) :
    Escapes ok ('%' :: x :: y :: rest) ↔ ok (x :: y :: rest) = true ∧ Escapes ok rest := by
  obtain ⟨plainX, plainY⟩ := letThrough_plain taken
  simp [escapes_cons, plainX, plainY]

theorem letThrough_pair {rest : List Char} (taken : letThrough lonePrefix behind rest = true) :
    ∃ x y more, rest = x :: y :: more := by
  match rest with
  | [] => simp [letThrough, hexPair, lenient] at taken
  | [x] => simp [letThrough, hexPair, lenient] at taken
  | x :: y :: more => exact ⟨x, y, more, rfl⟩

theorem spelled_pair {x y : Char} {rest : List Char} {value : Int}
    (taken : scanHex lonePrefix (x :: y :: (rest ++ behind)) = some (value, 2)) :
    spelled lonePrefix behind ('%' :: x :: y :: rest) =
      toByte value :: spelled lonePrefix behind rest := by
  simp [spelled, taken]

theorem spelled_refused {rest : List Char} (bad : letThrough lonePrefix behind rest ≠ true) :
    spelled lonePrefix behind ('%' :: rest) = [] := by
  match rest with
  | [] => rfl
  | [x] => rfl
  | x :: y :: more =>
    rw [spelled]
    split
    · rename_i value taken
      exact absurd ((scanHex_iff lonePrefix behind x y more).mp ⟨value, taken⟩) bad
    · rfl

theorem spelled_plain {c : Char} (other : c ≠ '%') (rest : List Char) :
    spelled lonePrefix behind (c :: rest) =
      (if c = '+' then ' ' else c) :: spelled lonePrefix behind rest := by
  rw [spelled, if_neg other]
  exact fun _ _ _ same => absurd same other

theorem escapes_refused {rest : List Char} (bad : letThrough lonePrefix behind rest ≠ true) :
    ¬ Escapes (letThrough lonePrefix behind) ('%' :: rest) := by
  rw [escapes_cons]
  exact fun all => bad (all.1 rfl)

/-- The buffer cuts off what the loop would write, and with it the refusal behind it. -/
theorem decodeLoop_eq (input : List Char) (room : Nat) :
    (decodeLoop lonePrefix behind input room = some ((spelled lonePrefix behind input).take room) ∧
      (room ≤ (spelled lonePrefix behind input).length ∨
        Escapes (letThrough lonePrefix behind) input)) ∨
    (decodeLoop lonePrefix behind input room = none ∧
      (spelled lonePrefix behind input).length < room ∧
      ¬ Escapes (letThrough lonePrefix behind) input) := by
  fun_induction decodeLoop lonePrefix behind input room with
  | case1 input => exact .inl ⟨rfl, .inl (Nat.zero_le _)⟩
  | case2 room => exact .inl ⟨by simp [spelled], .inr (escapes_nil _)⟩
  | case3 x y rest room value taken ih =>
    have pair := (scanHex_iff lonePrefix behind x y rest).mp ⟨value, taken⟩
    rw [spelled_pair lonePrefix behind taken, escapes_pair lonePrefix behind pair, and_iff_right pair]
    rcases ih with ⟨written, why⟩ | ⟨refused, early, bad⟩
    · exact .inl ⟨by simp [written], why.imp Nat.succ_le_succ id⟩
    · exact .inr ⟨by simp [refused], Nat.succ_lt_succ early, bad⟩
  | case4 x y rest room refused =>
    have bad : letThrough lonePrefix behind (x :: y :: rest) ≠ true := fun taken => by
      obtain ⟨value, there⟩ := (scanHex_iff lonePrefix behind x y rest).mpr taken
      exact refused value there
    exact .inr ⟨rfl, by simp [spelled_refused lonePrefix behind bad],
      escapes_refused lonePrefix behind bad⟩
  | case5 rest room short =>
    have bad : letThrough lonePrefix behind rest ≠ true := fun taken => by
      obtain ⟨x, y, more, same⟩ := letThrough_pair lonePrefix behind taken
      exact short x y more rfl same
    exact .inr ⟨rfl, by simp [spelled_refused lonePrefix behind bad],
      escapes_refused lonePrefix behind bad⟩
  | case6 c rest room _ other ih =>
    rw [spelled_plain lonePrefix behind other, escapes_cons,
      and_iff_right fun percent => absurd percent other]
    rcases ih with ⟨written, why⟩ | ⟨refused, early, bad⟩
    · exact .inl ⟨by simp [written], why.imp Nat.succ_le_succ id⟩
    · exact .inr ⟨by simp [refused], Nat.succ_lt_succ early, bad⟩

/-- The decoder walks over plain characters and over pairs that it lets through. -/
theorem walk {motive : List Char → Prop} (nil : motive [])
    (plain : ∀ c rest, c ≠ '%' → motive rest → motive (c :: rest))
    (pair : ∀ x y rest, letThrough lonePrefix behind (x :: y :: rest) = true → motive rest →
      motive ('%' :: x :: y :: rest))
    (refused : ∀ rest, letThrough lonePrefix behind rest ≠ true → motive ('%' :: rest))
    (input : List Char) : motive input := by
  induction input using spelled.induct lonePrefix behind with
  | case1 => exact nil
  | case2 x y rest value taken ih =>
    exact pair x y rest ((scanHex_iff lonePrefix behind x y rest).mp ⟨value, taken⟩) ih
  | case3 x y rest bad =>
    refine refused _ fun taken => ?_
    obtain ⟨value, there⟩ := (scanHex_iff lonePrefix behind x y rest).mpr taken
    exact bad value there
  | case4 rest short =>
    refine refused _ fun taken => ?_
    obtain ⟨x, y, more, same⟩ := letThrough_pair lonePrefix behind taken
    exact short x y more rfl same
  | case5 c rest _ other ih => exact plain c rest other ih

theorem spelled_length (input : List Char) :
    (spelled lonePrefix behind input).length + 2 * (cleanPart lonePrefix behind input).count '%' =
      (cleanPart lonePrefix behind input).length := by
  induction input using walk lonePrefix behind with
  | nil => rfl
  | plain c rest other ih => 
    rw [spelled_plain lonePrefix behind other]
    simp [cleanPart, other]
    omega
  | pair x y rest taken ih =>
    obtain ⟨plainX, plainY⟩ := letThrough_plain taken
    obtain ⟨value, there⟩ := (scanHex_iff lonePrefix behind x y rest).mpr taken
    rw [spelled_pair lonePrefix behind there]
    simp [cleanPart, taken, plainX, plainY]
    omega
  | refused rest bad =>
    rw [spelled_refused lonePrefix behind bad]
    simp [cleanPart, bad]

theorem cleanPart_length (input : List Char) :
    (cleanPart lonePrefix behind input).length ≤ input.length := by
  induction input with
  | nil => exact Nat.le_refl 0
  | cons c rest ih =>
    rw [cleanPart]
    split
    · exact Nat.zero_le _
    · exact Nat.succ_le_succ ih

theorem unescape_plain {c : Char} (other : c ≠ '%') (rest : List Char) :
    unescape (c :: rest) = (if c = '+' then ' ' else c) :: unescape rest := by
  rw [unescape]
  exact fun _ _ _ same => absurd same other

theorem escapes_mono {ok ok' : List Char → Bool} (weaker : ∀ rest, ok rest = true → ok' rest = true)
    {input : List Char} (all : Escapes ok input) : Escapes ok' input :=
  fun front rest same => weaker rest (all front rest same)

theorem hexPair_letThrough {rest : List Char} (digits : hexPair rest = true) :
    letThrough lonePrefix behind rest = true := by
  simp [letThrough, digits]

theorem scanHex_digits {x y : Char} (rest : List Char) (digits : hexPair (x :: y :: rest) = true) :
    scanHex lonePrefix (x :: y :: (rest ++ behind)) =
      some (16 * ((hexDigit x).getD 0 : Int) + (hexDigit y).getD 0, 2) := by
  simp only [hexPair, Bool.and_eq_true] at digits
  obtain ⟨high, first⟩ := Option.isSome_iff_exists.mp digits.1
  obtain ⟨low, second⟩ := Option.isSome_iff_exists.mp digits.2
  have solid : ¬ CStr.isspace x = true := by simp [hex_plain digits.1]
  have field := hexField_digits lonePrefix (rest ++ behind) first second
  simp [scanHex, List.dropWhile_cons_of_neg solid, List.takeWhile_cons_of_neg solid, field, first,
    second]

theorem spelled_unescape {input : List Char} (strict : Escapes hexPair input) :
    spelled lonePrefix behind input = unescape input := by
  induction input using walk lonePrefix behind with
  | nil => rfl
  | plain c rest other ih =>
    rw [spelled_plain lonePrefix behind other, unescape_plain other,
      ih ((escapes_cons _ c rest).mp strict).2]
  | pair x y rest taken ih =>
    obtain ⟨digits, strict⟩ := (escapes_pair lonePrefix behind taken _).mp strict
    rw [spelled_pair lonePrefix behind (scanHex_digits lonePrefix behind rest digits), unescape,
      ih strict]
  | refused rest bad =>
    exact absurd (hexPair_letThrough lonePrefix behind (((escapes_cons _ _ _).mp strict).1 rfl)) bad

theorem neuUrlDecode_parts (input : List Char) (size : Nat) :
    neuUrlDecode lonePrefix (input ++ behind) input.length size =
      (decodeLoop lonePrefix behind input size).map fun written =>
        ⟨written.length, (if written.length < size then written else written.dropLast) ++ ['\x00']⟩ := by
  simp [neuUrlDecode]

/-- With enough room the decoder gives the whole text, or refuses. -/
theorem decode_roomy {input : List Char} {size : Nat}
    (roomy : (spelled lonePrefix behind input).length < size) (out : UrlDecoded) :
    neuUrlDecode lonePrefix (input ++ behind) input.length size = some out ↔
      Escapes (letThrough lonePrefix behind) input ∧
        out = ⟨(spelled lonePrefix behind input).length,
          spelled lonePrefix behind input ++ ['\x00']⟩ := by
  rw [neuUrlDecode_parts]
  rcases decodeLoop_eq lonePrefix behind input size with ⟨written, why⟩ | ⟨refused, -, bad⟩
  · have good := why.resolve_left (by omega)
    rw [List.take_of_length_le (Nat.le_of_lt roomy)] at written
    simp [written, good, roomy, eq_comm]
  · simp [refused, bad]

theorem spelled_le (input : List Char) : (spelled lonePrefix behind input).length ≤ input.length := by
  have count := spelled_length lonePrefix behind input
  have clean := cleanPart_length lonePrefix behind input
  omega

theorem decodedForm_iff (input form : List Char) :
    decodedForm lonePrefix input behind = some form ↔
      Escapes (letThrough lonePrefix behind) input ∧ form = spelled lonePrefix behind input := by
  have short := spelled_le lonePrefix behind input
  rw [decodedForm]
  rcases decodeLoop_eq lonePrefix behind input (input.length + 1) with
    ⟨written, why⟩ | ⟨refused, -, bad⟩
  · rw [written, List.take_of_length_le (by omega)]
    simp [why.resolve_left (by omega), eq_comm]
  · simp [refused, bad]

/-- The loop fills the buffer, and the terminator takes the place of its last character. -/
theorem decode_full {input : List Char} {size : Nat}
    (full : size ≤ (spelled lonePrefix behind input).length) :
    neuUrlDecode lonePrefix (input ++ behind) input.length size =
      some ⟨size, ((spelled lonePrefix behind input).take (size - 1)) ++ ['\x00']⟩ := by
  have length : ((spelled lonePrefix behind input).take size).length = size := by
    rw [List.length_take]
    omega
  have last : ((spelled lonePrefix behind input).take size).dropLast =
      (spelled lonePrefix behind input).take (size - 1) := by
    rw [List.dropLast_eq_take, length, List.take_take, Nat.min_eq_left (Nat.sub_le _ _)]
  rw [neuUrlDecode_parts]
  rcases decodeLoop_eq lonePrefix behind input size with ⟨written, -⟩ | ⟨-, early, -⟩
  · simp [written, length, last]
  · omega

theorem decode_reported (input : List Char) (size : Nat) :
    DecodeReported lonePrefix input behind size where
  complete out taken below := by
    by_cases roomy : (spelled lonePrefix behind input).length < size
    · obtain ⟨good, rfl⟩ := (decode_roomy lonePrefix behind roomy out).mp taken
      exact ⟨_, (decodedForm_iff lonePrefix behind input _).mpr ⟨good, rfl⟩, rfl⟩
    · rw [decode_full lonePrefix behind (Nat.le_of_not_lt roomy)] at taken
      cases taken
      exact absurd below (Nat.lt_irrefl size)
  overflow form whole long := by
    obtain ⟨-, rfl⟩ := (decodedForm_iff lonePrefix behind input form).mp whole
    exact decode_full lonePrefix behind long

theorem whole_iff (input : List Char) {size : Nat} (positive : 0 < size) :
    Whole lonePrefix input behind size ↔ Fits lonePrefix input behind size := by
  have count := spelled_length lonePrefix behind input
  by_cases roomy : (spelled lonePrefix behind input).length < size
  · refine iff_of_true (fun out taken => ?_) (by rw [Fits]; omega)
    obtain ⟨good, rfl⟩ := (decode_roomy lonePrefix behind roomy out).mp taken
    exact ⟨_, (decodedForm_iff lonePrefix behind input _).mpr ⟨good, rfl⟩, rfl⟩
  · refine iff_of_false (fun whole => ?_) (by rw [Fits]; omega)
    obtain ⟨form, -, same⟩ := whole _ (decode_full lonePrefix behind (Nat.le_of_not_lt roomy))
    obtain ⟨length, buffer⟩ := UrlDecoded.mk.inj same
    have sizes := congrArg List.length buffer
    simp only [List.length_append, List.length_take] at sizes
    omega

theorem decodes_iff {input : List Char} {size : Nat} (larger : input.length < size) :
    Decodes lonePrefix input behind size ↔ Strict lonePrefix input behind := by
  have roomy := Nat.lt_of_le_of_lt (spelled_le lonePrefix behind input) larger
  have refused : (∃ front rest, input = front ++ '%' :: rest ∧
      letThrough lonePrefix behind rest = false) ↔ ¬ Escapes (letThrough lonePrefix behind) input := by
    simp [Escapes]
  rw [Decodes, Strict, refused]
  simp only [decode_roomy lonePrefix behind roomy]
  by_cases strict : Escapes hexPair input
  · have good := escapes_mono (fun _ => hexPair_letThrough lonePrefix behind) strict
    simp [strict, good, spelled_unescape lonePrefix behind strict]
  · simp [strict]

theorem unescape_encode {keep : Char → Bool} {digit : Nat → Char} (percent : keep '%' = false)
    (plus : keep '+' = false) (spells : ∀ v < 16, hexDigit (digit v) = some v) (bytes : List Char)
    (small : ∀ c ∈ bytes, c.toNat < 256) :
    Escapes hexPair (encode keep digit bytes) ∧ unescape (encode keep digit bytes) = bytes := by
  induction bytes with
  | nil => exact ⟨escapes_nil _, rfl⟩
  | cons c bytes ih =>
    obtain ⟨strict, back⟩ := ih fun d inside => small d (List.mem_cons_of_mem _ inside)
    have byte := small c List.mem_cons_self
    by_cases kept : keep c = true
    · have noPercent : c ≠ '%' := by
        rintro rfl
        simp [percent] at kept
      have noPlus : c ≠ '+' := by
        rintro rfl
        simp [plus] at kept
      have text : encode keep digit (c :: bytes) = c :: encode keep digit bytes := by
        simp [encode, kept]
      rw [text, escapes_cons, unescape_plain noPercent, if_neg noPlus, back]
      exact ⟨⟨fun same => absurd same noPercent, strict⟩, rfl⟩
    · have text : encode keep digit (c :: bytes) =
          '%' :: digit (c.toNat / 16) :: digit (c.toNat % 16) :: encode keep digit bytes := by
        simp [encode, kept]
      have high := spells (c.toNat / 16) (by omega)
      have low := spells (c.toNat % 16) (by omega)
      have digits : hexPair (digit (c.toNat / 16) :: digit (c.toNat % 16) ::
          encode keep digit bytes) = true := by
        simp [hexPair, isHex, high, low]
      have value : toByte (16 * ((c.toNat / 16 : Nat) : Int) + ((c.toNat % 16 : Nat) : Int)) = c := by
        rw [toByte, show (16 * ((c.toNat / 16 : Nat) : Int) + ((c.toNat % 16 : Nat) : Int)) % 256 =
          (c.toNat : Int) by omega, Int.toNat_natCast, Char.ofNat_toNat]
      rw [text, escapes_pair true [] (hexPair_letThrough true [] digits), unescape, high, low]
      exact ⟨⟨digits, strict⟩, by rw [Option.getD_some, Option.getD_some, value, back]⟩

end

theorem percent_decoding (lonePrefix : Bool) :
    (∀ (input behind : List Char) (size : Nat), input.length < size →
      (Decodes lonePrefix input behind size ↔ Strict lonePrefix input behind)) ∧
    (∀ (keep : Char → Bool) (digit : Nat → Char) (bytes behind : List Char) (size : Nat),
      keep '%' = false → keep '+' = false → (∀ v < 16, hexDigit (digit v) = some v) →
      (∀ c ∈ bytes, c.toNat < 256) → (encode keep digit bytes).length < size →
      neuUrlDecode lonePrefix (encode keep digit bytes ++ behind) (encode keep digit bytes).length
        size = some ⟨bytes.length, bytes ++ ['\x00']⟩) := by
  refine ⟨fun input behind size => decodes_iff lonePrefix behind, ?_⟩
  intro keep digit bytes behind size percent plus spells small larger
  obtain ⟨strict, back⟩ := unescape_encode percent plus spells bytes small
  have decodes := (decodes_iff lonePrefix behind larger).mpr (.inl strict)
  exact (decodes _).mpr ⟨strict, by rw [back]⟩

/-- A sign and a digit are taken for a byte. -/
theorem percent_decoding_sign : ¬ Decodes true "%-1".toList [] 8 := by
  intro decodes
  have taken : neuUrlDecode true "%-1".toList 3 8 = some ⟨1, ['\xff', '\x00']⟩ := by decide
  have strict := ((decodes _).mp taken).1
  exact absurd (strict [] _ rfl) (by decide)

theorem percent_decoding_space : Decodes true "%20".toList [] 4 ↔ Strict true "%20".toList [] :=
  (percent_decoding true).1 _ _ _ (by decide)

theorem neuUrlDecode_split (lonePrefix : Bool) (text : List Char) (len size : Nat) :
    neuUrlDecode lonePrefix text len size =
      neuUrlDecode lonePrefix (text.take len ++ text.drop len) (text.take len).length size := by
  rw [neuUrlDecode_parts, neuUrlDecode]

/-- What is given for a parameter is what the decoder gives for its value. -/
theorem getParamStr_iff (lonePrefix : Bool) (url name : CStr) (size : Nat) (out : UrlDecoded) :
    neuHttpGetParamStr lonePrefix url name size = .ok out ↔
      ∃ value, getParam url name = some value ∧
        neuUrlDecode lonePrefix ((valueText url value).1 ++ (valueText url value).2)
          (valueText url value).1.length size = some out := by
  rw [neuHttpGetParamStr]
  cases getParam url name with
  | none => simp
  | some value =>
    simp only [valueText, ← neuUrlDecode_split]
    cases decoded : neuUrlDecode lonePrefix (url.drop value.start).chars value.len size <;>
      simp [decoded]

theorem param_reported (lonePrefix : Bool) (url name : CStr) (size : Nat) :
    ParamReported lonePrefix url name size where
  complete out taken below := by
    obtain ⟨value, found, decoded⟩ := (getParamStr_iff lonePrefix url name size out).mp taken
    obtain ⟨form, rest⟩ := (decode_reported lonePrefix _ _ size).complete out decoded below
    exact ⟨value, form, found, rest⟩
  overflow value form found whole long :=
    (getParamStr_iff lonePrefix url name size _).mpr
      ⟨value, found, (decode_reported lonePrefix _ _ size).overflow form whole long⟩

theorem wholeParam_iff (lonePrefix : Bool) (url name : CStr) (size : Nat) :
    WholeParam lonePrefix url name size ↔ ∀ value, getParam url name = some value →
      Whole lonePrefix (valueText url value).1 (valueText url value).2 size := by
  have result := getParamStr_iff lonePrefix url name size
  constructor
  · intro whole value found out taken
    obtain ⟨value', form, found', rest⟩ := whole out ((result out).mpr ⟨value, found, taken⟩)
    obtain rfl := Option.some.inj (found.symm.trans found')
    exact ⟨form, rest⟩
  · intro whole out taken
    obtain ⟨value, found, taken⟩ := (result out).mp taken
    obtain ⟨form, rest⟩ := whole value found out taken
    exact ⟨value, form, found, rest⟩

theorem no_silent_truncation (lonePrefix : Bool) (size : Nat) (positive : 0 < size) :
    (∀ input behind, DecodeReported lonePrefix input behind size ∧
      (Whole lonePrefix input behind size ↔ Fits lonePrefix input behind size)) ∧
    (∀ url name, ParamReported lonePrefix url name size ∧
      (WholeParam lonePrefix url name size ↔ ∀ value, getParam url name = some value →
        Fits lonePrefix (valueText url value).1 (valueText url value).2 size)) := by
  refine ⟨fun input behind => ⟨decode_reported lonePrefix behind input size,
    whole_iff lonePrefix behind input positive⟩,
      fun url name => ⟨param_reported lonePrefix url name size, ?_⟩⟩
  rw [wholeParam_iff]
  exact forall₂_congr fun value _ => whole_iff lonePrefix _ _ positive

/-- A value with no room to spare, and one that is one character too long. -/
theorem no_silent_truncation_four :
    DecodeReported true "abc".toList [] 4 ∧ DecodeReported true "abcd".toList [] 4 :=
  ⟨((no_silent_truncation true 4 (by decide)).1 _ _).1, ((no_silent_truncation true 4 (by decide)).1 _ _).1⟩

theorem no_silent_truncation_full :
    ¬ Whole true "abcd".toList [] 4 ∧ ¬ WholeParam true (.lit "/?n=abcd") (.lit "n") 4 := by
  constructor
  · intro whole
    obtain ⟨form, there, same⟩ := whole ⟨4, "abc\x00".toList⟩ (by decide)
    have form' : some form = some "abcd".toList := there.symm.trans (by decide)
    rw [Option.some.inj form'] at same
    exact absurd same (by decide)
  · intro whole
    have taken : neuHttpGetParamStr true (.lit "/?n=abcd") (.lit "n") 4 =
        .ok ⟨4, "abc\x00".toList⟩ := by decide
    obtain ⟨value, form, -, -, same⟩ := whole _ taken
    have length := congrArg (·.count + 1) same
    have buffer := congrArg (·.buffer.length) same
    simp only [List.length_append, List.length_singleton] at length buffer
    exact absurd (length.trans buffer.symm) (by decide)

end Cpm
