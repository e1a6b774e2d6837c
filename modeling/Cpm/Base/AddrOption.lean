import Cpm.Base.Tag

/-! What the options in addresses ask for, and for which addresses the parser finds it. -/
namespace Cpm

open Lib Lib.CStr

namespace AddrOption

def stringType (o : AddrOption) : Nat := (o.window 4 4).leValue

def bytesLength (o : AddrOption) : Nat := (o.window 0 1).leValue

def bitOp (o : AddrOption) : Bool := (o.window 0 1).leValue ≠ 0

def bit (o : AddrOption) : Nat := (o.window 1 1).leValue

end AddrOption

/- What an address asks for. -/

def AfterDot (text rest : List Char) : Prop := ∃ front, text = front ++ '.' :: rest ∧ '.' ∉ rest

def Asks (most : Nat) (rest : List Char) (n : Nat) : Prop := Numeral rest n ∧ 1 ≤ n ∧ n ≤ most

/-- The layouts of texts; without a letter it is the first. -/
def layouts : List (List Char × Nat) :=
  [([], NEU_DATATAG_STRING_TYPE_H), (['H'], NEU_DATATAG_STRING_TYPE_H),
    (['L'], NEU_DATATAG_STRING_TYPE_L), (['D'], NEU_DATATAG_STRING_TYPE_D),
    (['E'], NEU_DATATAG_STRING_TYPE_E)]

def AsksString (rest : List Char) (n layout : Nat) : Prop :=
  ∃ numeral suffix, rest = numeral ++ suffix ∧ Asks (2 ^ 16 - 1) numeral n ∧
    (suffix, layout) ∈ layouts

def OptionRight (tag : NeuDatatag) : Prop :=
  let parsed := neuDatatagParseAddrOption tag
  match tag.type with
  | .bytes => ∀ n, parsed.1 = 0 ∧ parsed.2.bytesLength = n ↔
      ∃ rest, AfterDot tag.address.chars rest ∧ Asks (2 ^ 8 - 1) rest n
  | .string => ∀ n layout,
      parsed.1 = 0 ∧ parsed.2.stringLength = n ∧ parsed.2.stringType = layout ↔
        ∃ rest, AfterDot tag.address.chars rest ∧ AsksString rest n layout
  | .bit => ∀ n, parsed.1 = 0 ∧ parsed.2.bitOp = true ∧ parsed.2.bit = n ↔
      ∃ rest, AfterDot tag.address.chars rest ∧ Asks (2 ^ 8 - 1) rest n
  | _ => True

/-- No number can be scanned behind the dot, or only one whose low bits are zero. -/
def ScansZero (width : Nat) (rest : List Char) : Prop :=
  ∀ n behind, scanDecimal rest = some (n, behind) → n % 2 ^ width = 0

def OptionPlain (tag : NeuDatatag) : Prop :=
  ∀ rest, AfterDot tag.address.chars rest →
    match tag.type with
    | .bytes => (∃ n, Asks (2 ^ 8 - 1) rest n) ∨
        ScansZero 8 rest ∧ (scanDecimal rest = none ∨ tag.option.byte 1 = 0)
    | .string => (∃ n layout, AsksString rest n layout ∧ layout ≠ NEU_DATATAG_STRING_TYPE_E) ∨
        ScansZero 16 rest
    | .bit => ∃ n, Asks (2 ^ 8 - 1) rest n
    | _ => True

/- The text behind the last dot. -/

theorem findLastCharacter_none {c : Char} {text : List Char} :
    findLastCharacter c text = none ↔ c ∉ text := by
  induction text with
  | nil => simp [findLastCharacter]
  | cons d text ih =>
    rw [findLastCharacter, Option.or_eq_none_iff, ih, List.mem_cons, not_or, and_comm]
    refine and_congr_left' ?_
    by_cases same : d = c
    · simp [same]
    · simp [same, Ne.symm same]

theorem findLastCharacter_some {c : Char} {text found : List Char} :
    findLastCharacter c text = some found ↔
      ∃ rest, found = c :: rest ∧ c ∉ rest ∧ ∃ front, text = front ++ c :: rest := by
  induction text with
  | nil => simp [findLastCharacter]
  | cons d text ih =>
    cases later : findLastCharacter c text with
    | some other =>
      rw [findLastCharacter, later, Option.some_or, ← later, ih]
      constructor
      · rintro ⟨rest, same, clean, front, split⟩
        exact ⟨rest, same, clean, d :: front, by rw [split, List.cons_append]⟩
      · rintro ⟨rest, same, clean, front, split⟩
        cases front with
        | nil =>
          obtain ⟨rfl, rfl⟩ := List.cons.inj split
          rw [findLastCharacter_none.2 clean] at later
          cases later
        | cons _ front => exact ⟨rest, same, clean, front, (List.cons.inj split).2⟩
    | none =>
      have clean := findLastCharacter_none.1 later
      rw [findLastCharacter, later, Option.none_or]
      constructor
      · intro here
        split at here
        · next same =>
          cases here
          exact ⟨text, by rw [same], clean, [], by rw [same, List.nil_append]⟩
        · cases here
      · rintro ⟨rest, rfl, _, front, split⟩
        cases front with
        | nil =>
          obtain ⟨rfl, rfl⟩ := List.cons.inj split
          rw [if_pos rfl]
        | cons _ front =>
          refine absurd ?_ clean
          rw [(List.cons.inj split).2]
          simp

theorem afterDot_iff {text rest : List Char} :
    AfterDot text rest ↔ findLastCharacter '.' text = some ('.' :: rest) := by
  rw [findLastCharacter_some]
  constructor
  · rintro ⟨front, split, clean⟩
    exact ⟨rest, rfl, clean, front, split⟩
  · rintro ⟨_, same, clean, front, split⟩
    cases same
    exact ⟨front, split, clean⟩

/- What is scanned. -/

theorem scanDecimal_numeral {numeral suffix : List Char} {n : Nat} (digits : Numeral numeral n)
    (other : suffix.head?.any Char.isDigit = false) :
    scanDecimal (numeral ++ suffix) = some (min (2 ^ 63 - 1) (n : Int), suffix) := by
  obtain ⟨nonempty, plain, value⟩ := digits
  cases numeral with
  | nil => exact absurd rfl nonempty
  | cons c numeral =>
    have digit := plain c List.mem_cons_self
    obtain ⟨black, unsigned, unsigned'⟩ := digit_plain digit
    have body : (c :: numeral ++ suffix).dropWhile isspace = c :: numeral ++ suffix := by
      rw [List.cons_append, List.dropWhile_cons_of_neg (by simp [black])]
    have behind : (c :: numeral ++ suffix).dropWhile Char.isDigit = suffix := by
      rw [List.dropWhile_append_of_pos plain]
      cases suffix with
      | nil => rfl
      | cons d suffix =>
        have notDigit : d.isDigit = false := other
        rw [List.dropWhile_cons_of_neg (by simp [notDigit])]
    have number : CStr.digits 0 (c :: numeral ++ suffix) = n := by
      rw [digits_append plain other, value]
    have clamped : max (-2 ^ 63) (min (2 ^ 63 - 1) (n : Int)) = min (2 ^ 63 - 1) (n : Int) := by omega
    unfold scanDecimal
    simp only [body]
    split
    · next same => exact absurd (List.cons.inj same).1 unsigned
    · next same => exact absurd (List.cons.inj same).1 unsigned'
    · have first : (c :: numeral ++ suffix).head?.any Char.isDigit = true := digit
      have positive : (c :: numeral ++ suffix).head? ≠ some '-' := by simpa using unsigned
      rw [if_pos first, if_neg positive, number, behind, clamped]

theorem scanDecimal_asked {most : Nat} {rest : List Char} {n : Nat} (small : most < 2 ^ 63)
    (asked : Asks most rest n) : scanDecimal rest = some ((n : Int), []) := by
  have scanned := scanDecimal_numeral asked.1 (rfl : [].head?.any Char.isDigit = false)
  rw [List.append_nil] at scanned
  rw [scanned, min_eq_right (by have := asked.2.2; omega)]

/- The fields of an option after it is written. -/

namespace AddrOption

variable (o : AddrOption) (n : Int)

theorem field_value {width : Nat} (bytes : Nat) (whole : 2 ^ width = 256 ^ bytes) :
    (Block.leBlock bytes (n % 2 ^ width).toNat).leValue = (n % 2 ^ width).toNat := by
  rw [Block.leValue_leBlock, ← whole]
  have positive := Nat.two_pow_pos width
  have low := Int.emod_nonneg n (b := 2 ^ width) (by positivity)
  have high := Int.emod_lt_of_pos n (b := 2 ^ width) (by positivity)
  refine Nat.mod_eq_of_lt ?_
  zify
  rwa [Int.toNat_of_nonneg low]

theorem bytesLength_set : (o.setBytesLength n).bytesLength = (n % 2 ^ 8).toNat := by
  rw [bytesLength, setBytesLength, Block.window_overlay _ _ (by decide)]
  exact field_value n 1 (by decide)

/-- The length that is tested has the next byte above it. -/
theorem stringLength_setBytes : (o.setBytesLength n).stringLength =
    (n % 2 ^ 8).toNat + 256 * (o.byte 1).toNat := by
  have two (o : AddrOption) : o.stringLength = (o.byte 0).toNat + 256 * (o.byte 1).toNat := by
    simp [stringLength, Block.leValue, Block.toList, Block.window, Nat.ofDigits_cons, -Block.byte_lt]
  have low : ((Block.leBlock 1 (n % 2 ^ 8).toNat).byte 0).toNat = (n % 2 ^ 8).toNat := by
    have value : (Block.leBlock 1 (n % 2 ^ 8).toNat).leValue = _ := field_value n 1 (by decide)
    simpa [Block.leValue, Block.toList] using value
  rw [two, setBytesLength, Block.byte_overlay _ _ _ (by decide), Block.byte_overlay _ _ _ (by decide),
    if_pos (by decide), if_neg (by decide), Nat.sub_zero, low]

theorem stringLength_set (type : Nat) :
    ((o.setStringLength n).setStringType type).stringLength = (n % 2 ^ 16).toNat := by
  rw [stringLength, setStringType,
    Block.window_overlay_apart _ _ (by decide) (.inl (by decide)), setStringLength,
    Block.window_overlay _ _ (by decide)]
  exact field_value n 2 (by decide)

theorem stringType_set {type : Nat} (small : type < 256 ^ 4) :
    (o.setStringType type).stringType = type := by
  rw [stringType, setStringType, Block.window_overlay _ _ (by decide), Block.leValue_leBlock,
    Nat.mod_eq_of_lt small]

theorem bit_set : ((o.setBit n).setBitOp true).bit = (n % 2 ^ 8).toNat := by
  rw [bit, setBitOp, Block.window_overlay_apart _ _ (by decide) (.inr (by decide)), setBit,
    Block.window_overlay _ _ (by decide)]
  exact field_value n 1 (by decide)

theorem bitOp_set (op : Bool) : (o.setBitOp op).bitOp = op := by
  rw [bitOp, setBitOp, Block.window_overlay _ _ (by decide), Block.leValue_leBlock]
  cases op <;> rfl

end AddrOption

/- The parser on the text behind the dot. -/

section
variable {option : AddrOption} {rest : List Char}

theorem asks_unique {most n k : Nat} (asked : Asks most rest n) : Asks most rest k ↔ n = k := by
  constructor
  · rintro ⟨again, _⟩
    exact asked.1.2.2.symm.trans again.2.2
  · rintro rfl
    exact asked

theorem answers_iff {α : Type} {answered : Prop} {answer : α} {asked : α → Prop}
    (unique : ∀ n, asked n → ∀ k, asked k ↔ n = k) :
    (∀ n, answered ∧ answer = n ↔ asked n) ↔
      (answered ∧ asked answer) ∨ (¬ answered ∧ ∀ n, ¬ asked n) := by
  constructor
  · intro right
    by_cases yes : answered
    · exact .inl ⟨yes, (right answer).1 ⟨yes, rfl⟩⟩
    · exact .inr ⟨yes, fun n here => yes ((right n).2 here).1⟩
  · rintro (⟨yes, here⟩ | ⟨no, never⟩) n
    · rw [unique answer here n]
      exact and_iff_right yes
    · exact iff_of_false (fun both => no both.1) (never n)

theorem answers_pair_iff {answered : Prop} {length layout : Nat} {asked : Nat → Nat → Prop}
    (unique : ∀ n l, asked n l → ∀ k m, asked k m ↔ n = k ∧ l = m) :
    (∀ n l, answered ∧ length = n ∧ layout = l ↔ asked n l) ↔
      (answered ∧ asked length layout) ∨ (¬ answered ∧ ∀ n l, ¬ asked n l) := by
  have paired : (∀ p : Nat × Nat, answered ∧ (length, layout) = p ↔ asked p.1 p.2) ↔
      (answered ∧ asked length layout) ∨ (¬ answered ∧ ∀ p : Nat × Nat, ¬ asked p.1 p.2) :=
    answers_iff fun p here q => by rw [unique p.1 p.2 here, Prod.ext_iff]
  simpa only [Prod.forall, Prod.mk.injEq] using paired

theorem scansZero_iff {width : Nat} {v : Int} {behind : List Char}
    (scanned : scanDecimal rest = some (v, behind)) : ScansZero width rest ↔ v % 2 ^ width = 0 := by
  constructor
  · intro zero
    exact zero v behind scanned
  · intro zero n other again
    cases scanned.symm.trans again
    exact zero

theorem parseBytes_right :
    (∀ n, (parseBytesOption option (some ('.' :: rest))).1 = 0 ∧
        (parseBytesOption option (some ('.' :: rest))).2.bytesLength = n ↔
          Asks (2 ^ 8 - 1) rest n) ↔
      (∃ n, Asks (2 ^ 8 - 1) rest n) ∨
        ScansZero 8 rest ∧ (scanDecimal rest = none ∨ option.byte 1 = 0) := by
  rw [answers_iff fun _ asked _ => asks_unique asked]
  cases scanned : scanDecimal rest with
  | none =>
    have never (n : Nat) : ¬ Asks (2 ^ 8 - 1) rest n := fun asked => by
      cases scanned.symm.trans (scanDecimal_asked (by decide) asked)
    refine iff_of_true (.inr ⟨?_, never⟩) (.inr ⟨?_, .inl rfl⟩)
    · simp [parseBytesOption, scanned]
    · rintro n behind again
      cases scanned.symm.trans again
  | some found =>
    obtain ⟨v, behind⟩ := found
    have low := Int.emod_nonneg v (b := 2 ^ 8) (by decide)
    have answered : (parseBytesOption option (some ('.' :: rest))).1 = 0 ↔
        ¬ (v % 2 ^ 8 = 0 ∧ option.byte 1 = 0) := by
      have field := AddrOption.stringLength_setBytes option v
      have zero : (option.byte 1).toNat = 0 ↔ option.byte 1 = 0 := UInt8.toNat_inj (b := 0)
      simp only [parseBytesOption, List.tail_cons, scanned, field, ← zero]
      split
      · next nothing => exact iff_of_false (by decide) (by omega)
      · next length => exact iff_of_true rfl (by omega)
    have answer : (parseBytesOption option (some ('.' :: rest))).2.bytesLength = (v % 2 ^ 8).toNat := by
      simp only [parseBytesOption, List.tail_cons, scanned]
      exact AddrOption.bytesLength_set option v
    rw [answered, answer, scansZero_iff scanned]
    by_cases wanted : ∃ n, Asks (2 ^ 8 - 1) rest n
    · obtain ⟨n, asked⟩ := wanted
      cases scanned.symm.trans (scanDecimal_asked (by decide) asked)
      have range := asked.2
      have whole : ((n : Int) % 2 ^ 8).toNat = n := by omega
      refine iff_of_true (.inl ⟨by omega, whole.symm ▸ asked⟩) (.inl ⟨n, asked⟩)
    · have never (n : Nat) : ¬ Asks (2 ^ 8 - 1) rest n := fun asked => wanted ⟨n, asked⟩
      simp only [never, and_false, false_or, not_false_eq_true, implies_true, and_true, not_not,
        exists_false, reduceCtorEq]

theorem parseBit_right :
    (∀ n, (parseBitOption option (some ('.' :: rest))).bitOp = true ∧
        (parseBitOption option (some ('.' :: rest))).bit = n ↔ Asks (2 ^ 8 - 1) rest n) ↔
      ∃ n, Asks (2 ^ 8 - 1) rest n := by
  have answered : (parseBitOption option (some ('.' :: rest))).bitOp = true := by
    cases scanned : scanDecimal rest with
    | none =>
      simp only [parseBitOption, List.tail_cons, scanned]
      exact AddrOption.bitOp_set option true
    | some found =>
      simp only [parseBitOption, List.tail_cons, scanned]
      exact AddrOption.bitOp_set _ true
  rw [answers_iff fun _ asked _ => asks_unique asked]
  constructor
  · rintro (⟨_, asked⟩ | ⟨no, _⟩)
    · exact ⟨_, asked⟩
    · exact absurd answered no
  · rintro ⟨n, asked⟩
    have scanned : scanDecimal rest = some ((n : Int), []) := scanDecimal_asked (by decide) asked
    have range := asked.2
    have whole : ((n : Int) % 2 ^ 8).toNat = n := by omega
    have answer : (parseBitOption option (some ('.' :: rest))).bit = n := by
      simp only [parseBitOption, List.tail_cons, scanned]
      rw [AddrOption.bit_set, whole]
    exact .inl ⟨answered, answer.symm ▸ asked⟩

theorem layouts_letter {suffix : List Char} {layout : Nat} (listed : (suffix, layout) ∈ layouts) :
    suffix.head?.any Char.isDigit = false ∧ layout < 256 ^ 4 ∧
      (Cpm.stringType (suffix.headD '\x00') = layout ↔ layout ≠ NEU_DATATAG_STRING_TYPE_E) ∧
      ∀ other, (suffix, other) ∈ layouts → layout = other := by
  simp only [layouts, List.mem_cons, Prod.mk.injEq, List.not_mem_nil, or_false] at listed
  obtain ⟨rfl, rfl⟩ | ⟨rfl, rfl⟩ | ⟨rfl, rfl⟩ | ⟨rfl, rfl⟩ | ⟨rfl, rfl⟩ := listed
  all_goals
    refine ⟨rfl, by decide, by decide, ?_⟩
    intro other also
    simpa [layouts, eq_comm] using also

theorem asksString_scan {n layout : Nat} (asked : AsksString rest n layout) :
    ∃ suffix, scanDecimal rest = some ((n : Int), suffix) ∧ (suffix, layout) ∈ layouts ∧
      1 ≤ n ∧ n ≤ 2 ^ 16 - 1 := by
  obtain ⟨numeral, suffix, rfl, ⟨digits, range⟩, listed⟩ := asked
  have scanned := scanDecimal_numeral digits (layouts_letter listed).1
  rw [min_eq_right (by omega)] at scanned
  exact ⟨suffix, scanned, listed, range⟩

theorem asksString_unique {n layout : Nat} (asked : AsksString rest n layout) (k other : Nat) :
    AsksString rest k other ↔ n = k ∧ layout = other := by
  constructor
  · intro also
    obtain ⟨suffix, scanned, listed, _⟩ := asksString_scan asked
    obtain ⟨suffix', scanned', listed', _⟩ := asksString_scan also
    have same := scanned.symm.trans scanned'
    simp only [Option.some.injEq, Prod.mk.injEq, Int.natCast_inj] at same
    obtain ⟨numbers, rfl⟩ := same
    exact ⟨numbers, (layouts_letter listed).2.2.2 _ listed'⟩
  · rintro ⟨rfl, rfl⟩
    exact asked

theorem stringType_lt (letter : Char) : Cpm.stringType letter < 256 ^ 4 := by
  unfold Cpm.stringType
  split <;> decide

theorem parseString_right :
    (∀ n layout, (parseStringOption option (some ('.' :: rest))).1 = 0 ∧
        (parseStringOption option (some ('.' :: rest))).2.stringLength = n ∧
        (parseStringOption option (some ('.' :: rest))).2.stringType = layout ↔
          AsksString rest n layout) ↔
      (∃ n layout, AsksString rest n layout ∧ layout ≠ NEU_DATATAG_STRING_TYPE_E) ∨
        ScansZero 16 rest := by
  rw [answers_pair_iff fun _ _ asked => asksString_unique asked]
  cases scanned : scanDecimal rest with
  | none =>
    have never (n layout : Nat) : ¬ AsksString rest n layout := fun asked => by
      obtain ⟨_, found, _⟩ := asksString_scan asked
      cases scanned.symm.trans found
    refine iff_of_true (.inr ⟨?_, never⟩) (.inr ?_)
    · simp [parseStringOption, scanned]
    · rintro n behind again
      cases scanned.symm.trans again
  | some found =>
    obtain ⟨v, behind⟩ := found
    have low := Int.emod_nonneg v (b := 2 ^ 16) (by decide)
    have length : (parseStringOption option (some ('.' :: rest))).2.stringLength =
        (v % 2 ^ 16).toNat := by
      simp only [parseStringOption, List.tail_cons, scanned]
      exact AddrOption.stringLength_set option v _
    have letter : (parseStringOption option (some ('.' :: rest))).2.stringType =
        Cpm.stringType (behind.headD '\x00') := by
      simp only [parseStringOption, List.tail_cons, scanned]
      exact AddrOption.stringType_set _ (stringType_lt _)
    have answered : (parseStringOption option (some ('.' :: rest))).1 = 0 ↔ ¬ v % 2 ^ 16 = 0 := by
      have field := AddrOption.stringLength_set option v (Cpm.stringType (behind.headD '\x00'))
      simp only [parseStringOption, List.tail_cons, scanned, field]
      split
      · next nothing => exact iff_of_false (by decide) (by omega)
      · next length => exact iff_of_true rfl (by omega)
    rw [answered, length, letter, scansZero_iff scanned]
    by_cases wanted : ∃ n layout, AsksString rest n layout
    · obtain ⟨n, layout, asked⟩ := wanted
      obtain ⟨suffix, found, listed, range⟩ := asksString_scan asked
      cases scanned.symm.trans found
      obtain ⟨_, _, same, _⟩ := layouts_letter listed
      have whole : ((n : Int) % 2 ^ 16).toNat = n := by omega
      have some : ¬ (n : Int) % 2 ^ 16 = 0 := by omega
      simp only [asksString_unique asked, whole, some, not_false_eq_true, true_and, not_true_eq_false,
        false_and, or_false]
      constructor
      · intro letter
        exact ⟨n, layout, ⟨rfl, rfl⟩, same.1 letter.symm⟩
      · rintro ⟨_, _, ⟨rfl, rfl⟩, plain⟩
        exact (same.2 plain).symm
    · have never (n layout : Nat) : ¬ AsksString rest n layout := fun asked =>
        wanted ⟨n, layout, asked⟩
      simp only [never, and_false, false_or, not_false_eq_true, implies_true, and_true, not_not,
        exists_false, false_and]

end

theorem afterDot_cases (text : List Char) :
    (findLastCharacter '.' text = none ∧ ∀ rest, ¬ AfterDot text rest) ∨
      ∃ rest, findLastCharacter '.' text = some ('.' :: rest) ∧
        ∀ other, AfterDot text other ↔ rest = other := by
  cases found : findLastCharacter '.' text with
  | none =>
    refine .inl ⟨rfl, fun rest after => ?_⟩
    cases found.symm.trans (afterDot_iff.1 after)
  | some dot =>
    obtain ⟨rest, rfl, _⟩ := findLastCharacter_some.1 found
    refine .inr ⟨rest, rfl, fun other => ?_⟩
    rw [afterDot_iff, found]
    simp

theorem addr_option_right (tag : NeuDatatag) : OptionRight tag ↔ OptionPlain tag := by
  unfold OptionRight OptionPlain neuDatatagParseAddrOption
  obtain ⟨undotted, never⟩ | ⟨rest, dotted, behind⟩ := afterDot_cases tag.address.chars
  · simp only [undotted, never, false_and, exists_false, iff_false, false_implies, implies_true,
      iff_true]
    cases type : tag.type
    case bytes | string => simp [parseBytesOption, parseStringOption]
    case bit =>
      have off := AddrOption.bitOp_set tag.option false
      simp [parseBitOption, off]
    all_goals trivial
  · simp only [dotted, behind, exists_eq_left', forall_eq']
    cases type : tag.type
    case bytes => exact parseBytes_right
    case string => exact parseString_right
    case bit =>
      simp only [true_and]
      exact parseBit_right
    all_goals trivial

def lowByteTag : NeuDatatag where
  name := .lit "serial"
  address := .lit "1!400001.20E"
  attributes := NEU_ATTRIBUTE_READ
  type := .string
  precision := 0
  decimal := 0
  description := .empty
  option := Block.zero
  staticValue := none

/-- The letter of the fourth layout selects the third. -/
theorem addr_option_layout : (neuDatatagParseAddrOption lowByteTag).1 = 0 ∧
    (neuDatatagParseAddrOption lowByteTag).2.stringType = NEU_DATATAG_STRING_TYPE_D ∧
    ¬ OptionRight lowByteTag := by
  have layout : (neuDatatagParseAddrOption lowByteTag).2.stringType = NEU_DATATAG_STRING_TYPE_D := by
    decide
  refine ⟨by decide, layout, fun right => ?_⟩
  have behind : AfterDot lowByteTag.address.chars "20E".toList :=
    ⟨"1!400001".toList, by decide, by decide⟩
  have numeral : Numeral "20".toList 20 := ⟨by decide, List.all_eq_true.1 rfl, by decide⟩
  have asks : AsksString "20E".toList 20 NEU_DATATAG_STRING_TYPE_E :=
    ⟨"20".toList, "E".toList, by decide, ⟨numeral, by decide⟩, by decide⟩
  have answered := (right 20 NEU_DATATAG_STRING_TYPE_E).2 ⟨_, behind, asks⟩
  exact absurd (layout.symm.trans answered.2.2) (by decide)

end Cpm
