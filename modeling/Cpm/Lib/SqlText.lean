import Mathlib.Data.List.Basic

/-! Statements of SQL as texts. A format makes literals of its arguments, and the tokens of the text
are those of the format with the arguments in their places. -/
namespace Lib.Sql

/-- Real numbers are given by their bits. -/
inductive Value where
  | null
  | integer (n : Int)
  | real (bits : Nat)
  | text (chars : List Char)
  deriving DecidableEq

/-- How a real number is printed, what is read of its text, and what a column keeps of it. -/
structure Reals where
  print : Nat → List Char
  read : List Char → Nat
  kept : Nat → Nat

/- Tokens. -/

inductive Token where
  | word (name : String)
  | mark (c : Char)
  | number (chars : List Char)
  | text (chars : List Char)
  deriving DecidableEq

/-- What has been read of a token. A text is closed by a quote without another one behind it. -/
inductive Mode where
  | blank
  | word (chars : List Char)
  | number (chars : List Char)
  | quoted (chars : List Char)
  | closing (chars : List Char)
  | failed
  deriving DecidableEq

def quote : Char := '\x27'

def isMark (c : Char) : Bool := c = '(' || c = ')' || c = ',' || c = '=' || c = ';'

def inWord (c : Char) : Bool := c.isAlphanum || c = '_'

def inNumber (c : Char) : Bool := c.isDigit || c = '.'

/-- A sign belongs to the number behind it: there are no differences. -/
def start (c : Char) : Mode × List Token :=
  if c = ' ' then (.blank, [])
  else if c = quote then (.quoted [], [])
  else if c.isDigit || c = '-' then (.number [c], [])
  else if inWord c then (.word [c], [])
  else if isMark c then (.blank, [.mark c])
  else (.failed, [])

/-- The token that ends here, if one may. -/
def pending : Mode → Option (List Token)
  | .blank => some []
  | .word chars => some [.word (.ofList chars)]
  | .number chars => some [.number chars]
  | .closing chars => some [.text chars]
  | .quoted _ | .failed => none

def step (mode : Mode) (c : Char) : Mode × List Token :=
  match mode with
  | .blank => start c
  | .word chars =>
    if inWord c then (.word (chars ++ [c]), [])
    else ((start c).1, .word (.ofList chars) :: (start c).2)
  | .number chars =>
    if inNumber c then (.number (chars ++ [c]), [])
    else ((start c).1, .number chars :: (start c).2)
  | .quoted chars => if c = quote then (.closing chars, []) else (.quoted (chars ++ [c]), [])
  | .closing chars =>
    if c = quote then (.quoted (chars ++ [c]), [])
    else ((start c).1, .text chars :: (start c).2)
  | .failed => (.failed, [])

def run : Mode → List Char → Mode × List Token
  | mode, [] => (mode, [])
  | mode, c :: rest =>
    let further := run (step mode c).1 rest
    (further.1, (step mode c).2 ++ further.2)

def lexFrom (mode : Mode) (text : List Char) : Option (List Token) :=
  (pending (run mode text).1).map fun last => (run mode text).2 ++ last

def tokens (text : List Char) : Option (List Token) := lexFrom .blank text

def isDelimiter (c : Char) : Bool := c = ' ' || isMark c

def Delimited (rest : List Char) : Prop := rest.head?.all isDelimiter = true

theorem run_append (mode : Mode) (front rest : List Char) :
    run mode (front ++ rest) =
      ((run (run mode front).1 rest).1, (run mode front).2 ++ (run (run mode front).1 rest).2) := by
  induction front generalizing mode with
  | nil => rfl
  | cons c front ih => rw [List.cons_append, run, ih, run, List.append_assoc]

theorem lexFrom_append (mode : Mode) (front rest : List Char) :
    lexFrom mode (front ++ rest) =
      (lexFrom (run mode front).1 rest).map fun more => (run mode front).2 ++ more := by
  rw [lexFrom, lexFrom, run_append, Option.map_map]
  simp only [Function.comp_def, List.append_assoc]

theorem delimiter_plain {c : Char} (delimiter : isDelimiter c = true) :
    c ≠ quote ∧ inWord c = false ∧ inNumber c = false := by
  simp only [isDelimiter, isMark, Bool.or_eq_true, decide_eq_true_eq] at delimiter
  rcases delimiter with rfl | (((rfl | rfl) | rfl) | rfl) | rfl <;> decide

/-- A delimiter ends the token in front of it. -/
theorem lexFrom_delimited {mode : Mode} {last : List Token} {rest : List Char}
    (ended : pending mode = some last) (delimited : Delimited rest) :
    lexFrom mode rest = (tokens rest).map fun more => last ++ more := by
  cases rest with
  | nil => rw [lexFrom, run, ended]; simp [tokens, lexFrom, run, pending]
  | cons c rest =>
    obtain ⟨noQuote, noWord, noNumber⟩ := delimiter_plain delimited
    have stepped : step mode c = ((start c).1, last ++ (start c).2) := by
      cases mode with
      | blank =>
        obtain rfl := Option.some.inj ended
        rfl
      | word chars =>
        obtain rfl := Option.some.inj ended
        rw [step, noWord, if_neg Bool.false_ne_true, List.singleton_append]
      | number chars =>
        obtain rfl := Option.some.inj ended
        rw [step, noNumber, if_neg Bool.false_ne_true, List.singleton_append]
      | closing chars =>
        obtain rfl := Option.some.inj ended
        rw [step, if_neg noQuote, List.singleton_append]
      | quoted chars => cases ended
      | failed => cases ended
    rw [tokens, lexFrom, lexFrom, run, run, stepped, Option.map_map]
    simp only [Function.comp_def, List.append_assoc, step]

/- Formats. -/

/-- An argument of `%Q`, where NULL is no text, of `%i` or of `%lf`. -/
inductive Arg where
  | quoted (text : Option (List Char))
  | int (n : Int)
  | float (bits : Nat)

inductive Conversion where
  | quoted
  | int
  | float
  deriving DecidableEq

def Conversion.chars : Conversion → List Char
  | .quoted => ['%', 'Q']
  | .int => ['%', 'i']
  | .float => ['%', 'l', 'f']

def Arg.conversion : Arg → Conversion
  | .quoted _ => .quoted
  | .int _ => .int
  | .float _ => .float

def escaped (text : List Char) : List Char :=
  text.flatMap fun c => if c = quote then [quote, quote] else [c]

def intText : Int → List Char
  | .ofNat n => Nat.toDigits 10 n
  | .negSucc n => '-' :: Nat.toDigits 10 (n + 1)

def readInt : List Char → Int
  | '-' :: digits => -(Nat.ofDigitChars 10 digits 0 : Int)
  | digits => Nat.ofDigitChars 10 digits 0

/-- The text of a finite number: digits on both sides of the point. -/
def RealText (text : List Char) : Prop :=
  ∃ sign whole fraction, text = sign ++ whole ++ '.' :: fraction ∧ (sign = [] ∨ sign = ['-']) ∧
    whole ≠ [] ∧ (∀ c ∈ whole, c.isDigit = true) ∧ ∀ c ∈ fraction, c.isDigit = true

section
variable (reals : Reals)

def Arg.literal : Arg → List Char
  | .quoted none => "NULL".toList
  | .quoted (some text) => quote :: escaped text ++ [quote]
  | .int n => intText n
  | .float bits => reals.print bits

def vmprintf : List Char → List Arg → List Char
  | '%' :: 'Q' :: rest, .quoted text :: args =>
    (Arg.quoted text).literal reals ++ vmprintf rest args
  | '%' :: 'i' :: rest, .int n :: args => (Arg.int n).literal reals ++ vmprintf rest args
  | '%' :: 'l' :: 'f' :: rest, .float bits :: args =>
    (Arg.float bits).literal reals ++ vmprintf rest args
  | c :: rest, args => c :: vmprintf rest args
  | [], _ => []

def Arg.token : Arg → Token
  | .quoted none => .word "NULL"
  | .quoted (some text) => .text text
  | .int n => .number (intText n)
  | .float bits => .number (reals.print bits)

def Token.value : Token → Option Value
  | .text chars => some (.text chars)
  | .number chars => some (if '.' ∈ chars then .real (reals.read chars) else .integer (readInt chars))
  | .word name => if name = "NULL" then some .null else none
  | .mark _ => none

def Arg.value : Arg → Value
  | .quoted none => .null
  | .quoted (some text) => .text text
  | .int n => .integer n
  | .float bits => .real (reals.read (reals.print bits))

/-- The argument is of a kind that has a literal: a float is finite. -/
def Arg.Prints : Arg → Prop
  | .float bits => RealText (reals.print bits)
  | _ => True

end

theorem run_number {text : List Char} (plain : ∀ c ∈ text, inNumber c = true) (chars : List Char) :
    run (.number chars) text = (.number (chars ++ text), []) := by
  induction text generalizing chars with
  | nil => rw [run, List.append_nil]
  | cons c text ih =>
    have here : step (.number chars) c = (.number (chars ++ [c]), []) :=
      if_pos (plain c List.mem_cons_self)
    rw [run, here]
    simp only
    rw [ih fun d inside => plain d (List.mem_cons_of_mem _ inside), List.append_assoc]
    rfl

theorem run_numeral {first : Char} {text : List Char} (head : (first.isDigit || first = '-') = true)
    (plain : ∀ c ∈ text, inNumber c = true) :
    run .blank (first :: text) = (.number (first :: text), []) := by
  have plainFirst : first ≠ ' ' ∧ first ≠ quote := by
    constructor
    · rintro rfl
      revert head
      decide
    · rintro rfl
      revert head
      decide
  have here : step .blank first = (.number [first], []) := by
    rw [step, start, if_neg plainFirst.1, if_neg plainFirst.2, if_pos head]
  rw [run, here]
  simp only
  rw [run_number plain]
  rfl

theorem run_quoted (text chars : List Char) :
    run (.quoted chars) (escaped text) = (.quoted (chars ++ text), []) := by
  induction text generalizing chars with
  | nil => rw [escaped, List.flatMap_nil, run, List.append_nil]
  | cons c text ih =>
    have one : run (.quoted chars) (if c = quote then [quote, quote] else [c]) =
        (.quoted (chars ++ [c]), []) := by
      split
      · rename_i same
        subst same
        simp [run, step]
      · rename_i other
        simp [run, step, other]
    rw [escaped, List.flatMap_cons, run_append, one]
    simp only
    rw [← escaped, ih, List.append_assoc]
    rfl

theorem digits_inNumber {text : List Char} (plain : ∀ c ∈ text, c.isDigit = true) :
    ∀ c ∈ text, inNumber c = true := by
  intro c inside
  rw [inNumber, plain c inside, Bool.true_or]

theorem toDigits_isDigit (n : Nat) : ∀ c ∈ Nat.toDigits 10 n, c.isDigit = true :=
  fun _ inside => Nat.isDigit_of_mem_toDigits (by decide) (by decide) inside

theorem run_intText (n : Int) : run .blank (intText n) = (.number (intText n), []) := by
  cases n with
  | ofNat n =>
    have digits := toDigits_isDigit n
    rw [intText]
    cases text : Nat.toDigits 10 n with
    | nil => exact absurd text Nat.toDigits_ne_nil
    | cons first rest =>
      rw [text] at digits
      have head := digits first List.mem_cons_self
      exact run_numeral (by rw [head, Bool.true_or])
        (digits_inNumber fun c inside => digits c (List.mem_cons_of_mem _ inside))
  | negSucc n => exact run_numeral (by decide) (digits_inNumber (toDigits_isDigit (n + 1)))

theorem run_realText {text : List Char} (real : RealText text) :
    run .blank text = (.number text, []) := by
  obtain ⟨sign, whole, fraction, rfl, sign', some, wholeDigits, fractionDigits⟩ := real
  have behind : ∀ c ∈ '.' :: fraction, inNumber c = true := by
    rw [List.forall_mem_cons]
    exact ⟨by decide, digits_inNumber fractionDigits⟩
  rcases sign' with rfl | rfl
  · obtain ⟨first, rest, rfl⟩ := List.exists_cons_of_ne_nil some
    have head := wholeDigits first List.mem_cons_self
    refine run_numeral (by rw [head, Bool.true_or]) fun c inside => ?_
    rcases List.mem_append.mp inside with left | right
    · exact digits_inNumber wholeDigits c (List.mem_cons_of_mem _ left)
    · exact behind c right
  · refine run_numeral (by decide) fun c inside => ?_
    rcases List.mem_append.mp inside with left | right
    · exact digits_inNumber wholeDigits c left
    · exact behind c right

section
variable {reals : Reals} {arg : Arg}

/-- The literal is one token. -/
theorem run_literal (prints : arg.Prints reals) :
    (run .blank (arg.literal reals)).2 = [] ∧
      pending (run .blank (arg.literal reals)).1 = some [arg.token reals] := by
  cases arg with
  | quoted text =>
    cases text with
    | none =>
      have word : run .blank "NULL".toList = (.word "NULL".toList, []) := by decide
      rw [Arg.literal, word]
      simp [pending, Arg.token]
    | some text =>
      have whole : run .blank ((Arg.quoted (some text)).literal reals) = (.closing text, []) := by
        have opened : run .blank [quote] = (.quoted [], []) := by decide
        rw [Arg.literal, ← List.singleton_append, List.append_assoc, run_append, opened]
        simp only
        rw [run_append, run_quoted]
        simp [run, step]
      rw [whole]
      exact ⟨rfl, rfl⟩
  | int n =>
    rw [Arg.literal, run_intText]
    exact ⟨rfl, rfl⟩
  | float bits =>
    rw [Arg.literal, run_realText prints]
    exact ⟨rfl, rfl⟩

theorem tokens_literal (prints : arg.Prints reals) {rest : List Char} (delimited : Delimited rest) :
    tokens (arg.literal reals ++ rest) = (tokens rest).map fun more => arg.token reals :: more := by
  obtain ⟨none, last⟩ := run_literal prints
  rw [tokens, lexFrom_append, none, lexFrom_delimited last delimited, Option.map_map]
  rfl

end

example : tokens "name='it''s'".toList =
    some [.word "name", .mark '=', .text "it's".toList] := by decide +kernel

theorem readInt_intText (n : Int) : readInt (intText n) = n := by
  cases n with
  | ofNat n =>
    have digits := toDigits_isDigit n
    rw [intText, readInt]
    · rw [Nat.ofDigitChars_ten_toDigits]
      rfl
    · intro rest negative
      have sign := digits '-' (by rw [negative]; exact List.mem_cons_self)
      exact absurd sign (by decide)
  | negSucc n =>
    rw [intText, readInt, Nat.ofDigitChars_ten_toDigits]
    rfl

theorem intText_point (n : Int) : '.' ∉ intText n := by
  have digits (n : Nat) : '.' ∉ Nat.toDigits 10 n := fun inside =>
    absurd (toDigits_isDigit n '.' inside) (by decide)
  cases n with
  | ofNat n => exact digits n
  | negSucc n =>
    rw [intText, List.mem_cons, not_or]
    exact ⟨by decide, digits (n + 1)⟩

/-- A formatted argument is read back, a float as what is read of its text. -/
theorem value_token {reals : Reals} {arg : Arg} (prints : arg.Prints reals) :
    (arg.token reals).value reals = some (arg.value reals) := by
  cases arg with
  | quoted text =>
    cases text with
    | none => rfl
    | some text => rfl
  | int n => rw [Arg.token, Token.value, if_neg (intText_point n), readInt_intText, Arg.value]
  | float bits =>
    obtain ⟨sign, whole, fraction, text, -⟩ := prints
    have point : '.' ∈ reals.print bits := by simp [text]
    rw [Arg.token, Token.value, if_pos point, Arg.value]

/- The text of a format. -/

/-- A part of a format: what stands in front of a conversion, with its tokens. -/
structure Piece where
  front : List Char
  tokens : List Token
  conversion : Conversion

/-- The front ends between two tokens, and has no conversion in it. -/
def Piece.Closed (piece : Piece) : Prop :=
  run .blank piece.front = (.blank, piece.tokens) ∧ '%' ∉ piece.front

instance (piece : Piece) : Decidable piece.Closed := inferInstanceAs (Decidable (_ ∧ _))

def formatText : List Piece → List Char → List Char
  | [], tail => tail
  | piece :: rest, tail => piece.front ++ (piece.conversion.chars ++ formatText rest tail)

/-- Behind each conversion stands a delimiter. -/
def Separated (pieces : List Piece) (tail : List Char) : Prop :=
  (∀ piece ∈ pieces, Delimited piece.front ∧ piece.front ≠ []) ∧ Delimited tail

instance (rest : List Char) : Decidable (Delimited rest) :=
  inferInstanceAs (Decidable (rest.head?.all isDelimiter = true))

instance (pieces : List Piece) (tail : List Char) : Decidable (Separated pieces tail) :=
  inferInstanceAs (Decidable (_ ∧ _))

def formatTokens (reals : Reals) : List Piece → List Token → List Arg → List Token
  | piece :: rest, last, arg :: args =>
    piece.tokens ++ arg.token reals :: formatTokens reals rest last args
  | _, last, _ => last

section
variable {reals : Reals}

theorem vmprintf_plain {front : List Char} (plain : '%' ∉ front) (rest : List Char)
    (args : List Arg) : vmprintf reals (front ++ rest) args = front ++ vmprintf reals rest args := by
  induction front with
  | nil => rfl
  | cons c front ih =>
    have head : '%' ≠ c := fun same => plain (same ▸ List.mem_cons_self)
    rw [List.cons_append, vmprintf, ih fun inside => plain (List.mem_cons_of_mem _ inside)]
    · rfl
    all_goals
      intro _ _ _ _ percent
      exact absurd percent.symm head

theorem vmprintf_conversion (arg : Arg) (rest : List Char) (args : List Arg) :
    vmprintf reals (arg.conversion.chars ++ rest) (arg :: args) =
      arg.literal reals ++ vmprintf reals rest args := by
  cases arg <;> rfl

theorem vmprintf_tail {tail : List Char} (plain : '%' ∉ tail) : vmprintf reals tail [] = tail := by
  have whole := @vmprintf_plain reals tail plain [] []
  rw [List.append_nil] at whole
  rw [whole, vmprintf, List.append_nil]

theorem tokens_vmprintf {pieces : List Piece} {tail : List Char} {last : List Token}
    {args : List Arg} (kinds : args.map Arg.conversion = pieces.map Piece.conversion)
    (closed : ∀ piece ∈ pieces, piece.Closed) (ended : tokens tail = some last)
    (plain : '%' ∉ tail) (separated : Separated pieces.tail tail)
    (prints : ∀ arg ∈ args, arg.Prints reals) :
    tokens (vmprintf reals (formatText pieces tail) args) =
      some (formatTokens reals pieces last args) := by
  induction pieces generalizing args with
  | nil =>
    obtain rfl := List.map_eq_nil_iff.mp kinds
    rw [formatText, vmprintf_tail plain, ended]
    rfl
  | cons piece rest ih =>
    obtain ⟨arg, args, rfl, kind, kinds⟩ := List.map_eq_cons_iff.mp kinds
    rw [List.forall_mem_cons] at closed prints
    obtain ⟨⟨ran, clean⟩, closed⟩ := closed
    have inner : Separated rest.tail tail :=
      ⟨fun piece inside => separated.1 piece (List.mem_of_mem_tail inside), separated.2⟩
    have further := ih kinds closed inner prints.2
    -- What follows the literal is the next front, or the tail.
    have delimited : Delimited (vmprintf reals (formatText rest tail) args) := by
      cases rest with
      | nil =>
        obtain rfl := List.map_eq_nil_iff.mp kinds
        rw [formatText, vmprintf_tail plain]
        exact separated.2
      | cons next rest =>
        obtain ⟨before, some⟩ := separated.1 next List.mem_cons_self
        obtain ⟨c, front, split⟩ := List.exists_cons_of_ne_nil some
        rw [formatText, vmprintf_plain (closed next List.mem_cons_self).2, split]
        rw [split] at before
        exact before
    rw [formatText, ← kind, vmprintf_plain clean, vmprintf_conversion, tokens, lexFrom_append, ran]
    simp only
    rw [← tokens, tokens_literal prints.1 delimited, further]
    rfl

end

end Lib.Sql
