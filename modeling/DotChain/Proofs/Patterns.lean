import DotChain.Proofs.Lexemes
import DotChain.Token.Pattern
import Mathlib.Data.Nat.Digits.Defs
import Mathlib.Tactic.Ring

/-!
# Lexemes and patterns

A lexeme has the pattern of its token, and no longer text in its place has the pattern of any. Main
statements: `fits_of_stands` and `le_reach_of_matches`, the latter since a lexeme reaches at least as far as
any text that has a pattern.
-/

namespace DotChain

open scoped Computability

/-! ## The texts of patterns -/

namespace Pattern

theorem mem_exactly {word : String} {text : List Char} : text ∈ exactly word ↔ text = word.toList :=
  Iff.rfl

theorem mem_perhaps {texts : Language Char} {text : List Char} :
    text ∈ perhaps texts ↔ text = [] ∨ text ∈ texts := Iff.rfl

/-- A text behind one character. -/
theorem mem_one_mul {test : Char → Bool} {texts : Language Char} {text : List Char} :
    text ∈ one test * texts ↔ ∃ c rest, text = c :: rest ∧ test c = true ∧ rest ∈ texts := by
  rw [Language.mem_mul]
  constructor
  · rintro ⟨_, ⟨c, passes, rfl⟩, rest, there, rfl⟩
    exact ⟨c, rest, rfl, passes, there⟩
  · rintro ⟨c, rest, rfl, passes, there⟩
    exact ⟨[c], ⟨c, passes, rfl⟩, rest, there, rfl⟩

/-- Characters that pass a test, as many as there may be. -/
theorem mem_one_star {test : Char → Bool} {text : List Char} :
    text ∈ (one test)∗ ↔ ∀ c ∈ text, test c = true := by
  rw [Language.mem_kstar]
  constructor
  · rintro ⟨pieces, rfl, each⟩ c member
    obtain ⟨piece, there, member⟩ := List.mem_flatten.mp member
    obtain ⟨d, passes, rfl⟩ := each piece there
    obtain rfl := List.mem_singleton.mp member
    exact passes
  · intro all
    refine ⟨text.map fun c => [c], ?_, fun piece member => ?_⟩
    · rw [← List.flatMap_def, List.flatMap_singleton']
    · obtain ⟨c, there, rfl⟩ := List.mem_map.mp member
      exact ⟨c, all c there, rfl⟩

theorem mem_digits {text : List Char} : text ∈ digits ↔ Digits text := by
  rw [digits, mem_one_mul]
  constructor
  · rintro ⟨c, rest, rfl, digit, others⟩
    exact ⟨List.cons_ne_nil _ _, List.forall_mem_cons.mpr ⟨digit, mem_one_star.mp others⟩⟩
  · intro all
    obtain ⟨c, rest, rfl, digit, others⟩ := digits_cons all
    exact ⟨c, rest, rfl, digit, mem_one_star.mpr others⟩

theorem mem_integer {text : List Char} :
    text ∈ integer ↔ ∃ negative digits, Digits digits ∧ text = signed negative digits := by
  rw [integer, Language.mem_mul]
  constructor
  · rintro ⟨_, rfl | ⟨c, minus, rfl⟩, digits, all, rfl⟩
    · exact ⟨false, digits, mem_digits.mp all, rfl⟩
    · obtain rfl := eq_of_beq minus
      exact ⟨true, digits, mem_digits.mp all, rfl⟩
  · rintro ⟨negative, digits, all, rfl⟩
    cases negative with
    | false => exact ⟨[], .inl rfl, digits, mem_digits.mpr all, rfl⟩
    | true => exact ⟨['-'], .inr ⟨'-', rfl, rfl⟩, digits, mem_digits.mpr all, rfl⟩

theorem mem_exponent {text : List Char} : text ∈ exponent ↔ ∃ mark sign digits,
    (mark == 'e' || mark == 'E') = true ∧ (sign = [] ∨ sign = ['+'] ∨ sign = ['-']) ∧ Digits digits ∧
      text = mark :: (sign ++ digits) := by
  rw [exponent, mul_assoc, mem_one_mul]
  constructor
  · rintro ⟨mark, _, rfl, marks, behind⟩
    obtain ⟨sign, signs, digits, all, rfl⟩ := Language.mem_mul.mp behind
    refine ⟨mark, sign, digits, marks, (mem_perhaps.mp signs).imp_right ?_, mem_digits.mp all, rfl⟩
    rintro ⟨c, isSign, rfl⟩
    simpa using isSign
  · rintro ⟨mark, sign, digits, marks, signs, all, rfl⟩
    refine ⟨mark, _, rfl, marks, Language.mem_mul.mpr ⟨sign, ?_, digits, mem_digits.mpr all, rfl⟩⟩
    refine mem_perhaps.mpr (signs.imp_right fun one => ?_)
    obtain rfl | rfl := one
    · exact ⟨'+', rfl, rfl⟩
    · exact ⟨'-', rfl, rfl⟩

theorem mem_decimal {text : List Char} : text ∈ decimal ↔ ∃ negative whole fraction tail,
    Digits whole ∧ Digits fraction ∧ tail ∈ perhaps exponent ∧
      text = signed negative (whole ++ '.' :: (fraction ++ tail)) := by
  have signed_append (negative : Bool) (left right : List Char) :
      signed negative (left ++ right) = signed negative left ++ right := by
    cases negative <;> rfl
  rw [decimal, mul_assoc, mul_assoc, Language.mem_mul]
  constructor
  · rintro ⟨front, number, behind, between, rfl⟩
    obtain ⟨negative, whole, left, rfl⟩ := mem_integer.mp number
    obtain ⟨c, _, rfl, point, between⟩ := mem_one_mul.mp between
    obtain ⟨fraction, right, tail, there, rfl⟩ := Language.mem_mul.mp between
    obtain rfl := eq_of_beq point
    exact ⟨negative, whole, fraction, tail, left, mem_digits.mp right, there, (signed_append ..).symm⟩
  · rintro ⟨negative, whole, fraction, tail, left, right, there, rfl⟩
    refine ⟨_, mem_integer.mpr ⟨negative, whole, left, rfl⟩, _, mem_one_mul.mpr ?_, (signed_append ..).symm⟩
    exact ⟨'.', _, rfl, rfl, Language.mem_mul.mpr ⟨fraction, mem_digits.mpr right, tail, there, rfl⟩⟩

/-- What stands between quotes is a text with each quote doubled. -/
private theorem mem_between_quotes {text : List Char} :
    text ∈ (one (· != '\'') + exactly "''")∗ ↔ ∃ inner, text = Text.doubleQuotes inner := by
  rw [Language.mem_kstar]
  constructor
  · rintro ⟨pieces, rfl, each⟩
    induction pieces with
    | nil => exact ⟨[], rfl⟩
    | cons piece pieces ih =>
      obtain ⟨first, others⟩ := List.forall_mem_cons.mp each
      obtain ⟨inner, same⟩ := ih others
      rw [List.flatten_cons, same]
      obtain ⟨c, other, rfl⟩ | doubled := first
      · exact ⟨c :: inner, by simp [Text.doubleQuotes, bne_iff_ne.mp other]⟩
      · obtain rfl := mem_exactly.mp doubled
        exact ⟨'\'' :: inner, rfl⟩
  · rintro ⟨inner, rfl⟩
    induction inner with
    | nil => exact ⟨[], rfl, fun _ member => absurd member List.not_mem_nil⟩
    | cons c inner ih =>
      obtain ⟨pieces, same, each⟩ := ih
      by_cases quote : c = '\''
      · refine ⟨['\'', '\''] :: pieces, ?_, List.forall_mem_cons.mpr ⟨.inr rfl, each⟩⟩
        rw [List.flatten_cons, ← same, Text.doubleQuotes, if_pos quote]
        rfl
      · refine ⟨[c] :: pieces, ?_, List.forall_mem_cons.mpr ⟨.inl ⟨c, bne_iff_ne.mpr quote, rfl⟩, each⟩⟩
        rw [List.flatten_cons, ← same, Text.doubleQuotes, if_neg quote]
        rfl

theorem mem_quoted {text : List Char} : text ∈ quoted ↔ ∃ inner, text = Text.quote inner := by
  rw [quoted, mul_assoc, mem_one_mul]
  constructor
  · rintro ⟨c, _, rfl, opening, between⟩
    obtain ⟨middle, inside, _, ⟨d, closing, rfl⟩, rfl⟩ := Language.mem_mul.mp between
    obtain ⟨inner, rfl⟩ := mem_between_quotes.mp inside
    obtain rfl := eq_of_beq opening
    obtain rfl := eq_of_beq closing
    exact ⟨inner, rfl⟩
  · rintro ⟨inner, rfl⟩
    refine ⟨'\'', _, rfl, rfl, Language.mem_mul.mpr ?_⟩
    exact ⟨_, mem_between_quotes.mpr ⟨inner, rfl⟩, _, ⟨'\'', rfl, rfl⟩, rfl⟩

theorem mem_name {text : List Char} : text ∈ name ↔
    ∃ c rest, text = c :: rest ∧ Lexer.isNameStart c = true ∧ ∀ d ∈ rest, Lexer.isNamePart d = true := by
  rw [name, mem_one_mul]
  simp only [mem_one_star]

end Pattern

namespace Lexer

/-! ## How far patterns reach -/

private theorem le_run {test : Char → Bool} {front : List Char} (all : ∀ c ∈ front, test c = true)
    (back : List Char) : front.length ≤ run test (front ++ back) := by
  rw [run, List.takeWhile_append_of_pos all, List.length_append]
  exact Nat.le_add_right _ _

private theorem notDigit_mark {c : Char} (mark : (c == 'e' || c == 'E') = true) : isDigit c = false := by
  rw [Bool.or_eq_true, beq_iff_eq, beq_iff_eq] at mark
  rcases mark with rfl | rfl <;> rfl

private theorem le_exponentReach {text : List Char} (there : text ∈ Pattern.exponent) (back : List Char) :
    text.length ≤ exponentReach (text ++ back) := by
  obtain ⟨mark, sign, digits, marks, signs, all, rfl⟩ := Pattern.mem_exponent.mp there
  obtain ⟨d, others, rfl, digit, more⟩ := digits_cons all
  have reached := le_run more back
  obtain rfl | rfl | rfl := signs
  · have plain : exponentReach (mark :: d :: (others ++ back)) = 2 + run isDigit (others ++ back) := by
      have noSign : d ≠ '+' ∧ d ≠ '-' := by
        constructor <;> rintro rfl <;> cases digit
      simp [exponentReach, noSign, marks, digit]
    simp only [List.cons_append, List.nil_append, List.length_cons, plain]
    omega
  · simp only [List.cons_append, List.nil_append, List.length_cons, exponentReach, marks, digit, Bool.true_and,
      if_true]
    omega
  · simp only [List.cons_append, List.nil_append, List.length_cons, exponentReach, marks, digit, Bool.true_and,
      if_true]
    omega

private theorem le_fractionReach {fraction tail : List Char} (right : Digits fraction)
    (there : tail ∈ Pattern.perhaps Pattern.exponent) (back : List Char) :
    ('.' :: (fraction ++ tail)).length ≤ fractionReach ('.' :: (fraction ++ (tail ++ back))) := by
  obtain ⟨d, others, rfl, digit, more⟩ := digits_cons right
  rw [List.cons_append, List.cons_append, fractionReach, if_pos digit]
  obtain rfl | behind := Pattern.mem_perhaps.mp there
  · have reached := le_run more back
    simp only [List.append_nil, List.nil_append, List.length_cons]
    omega
  · have ends : ∀ c ∈ (tail ++ back).head?, isDigit c = false := by
      obtain ⟨mark, _, _, marks, _, _, rfl⟩ := Pattern.mem_exponent.mp behind
      intro c member
      obtain rfl := Option.some.inj member
      exact notDigit_mark marks
    obtain ⟨taken, left⟩ := takeWhile_stops more (tail ++ back) ends
    have reached := le_exponentReach behind back
    rw [run, taken, left]
    simp only [List.length_cons, List.length_append]
    omega

private theorem le_numberReach_whole {front : List Char} (digits : ∀ d ∈ front, isDigit d = true)
    (back : List Char) : front.length ≤ numberReach (front ++ back) :=
  Nat.le_trans (le_run digits back) (Nat.le_add_right _ _)

private theorem le_numberReach_point {front fraction tail : List Char} (digits : ∀ d ∈ front, isDigit d = true)
    (right : Digits fraction) (there : tail ∈ Pattern.perhaps Pattern.exponent) (back : List Char) :
    (front ++ '.' :: (fraction ++ tail)).length ≤ numberReach (front ++ '.' :: (fraction ++ tail) ++ back) := by
  have reached := le_fractionReach right there back
  obtain ⟨taken, left⟩ := takeWhile_stops digits ('.' :: (fraction ++ (tail ++ back))) (by simp [isDigit])
  rw [List.append_assoc, List.cons_append, List.append_assoc, numberReach, run, taken, left, List.length_append]
  omega

/-- A numeral reaches behind its first digit, and behind its sign if it has one. -/
private theorem le_reach_signed {negative : Bool} {c d : Char} {front rest back : List Char}
    (digit : isDigit d = true) (reached : front.length ≤ numberReach (front ++ back))
    (same : c :: rest = signed negative (d :: front)) : rest.length ≤ reach c (rest ++ back) := by
  cases negative with
  | true =>
    obtain ⟨rfl, rfl⟩ := List.cons.inj same
    change _ ≤ if isDigit d then 1 + numberReach (front ++ back) else 0
    rw [if_pos digit, List.length_cons]
    omega
  | false =>
    obtain ⟨rfl, rfl⟩ := List.cons.inj same
    unfold reach
    rwa [notStart_digit digit, if_neg Bool.false_ne_true, if_pos digit]

private theorem le_quoteReach (inner back : List Char) :
    (Text.doubleQuotes inner ++ ['\'']).length ≤ quoteReach (Text.doubleQuotes inner ++ ['\''] ++ back) := by
  induction inner with
  | nil =>
    rw [Text.doubleQuotes, List.nil_append, List.singleton_append, quoteReach_quote]
    split <;> simp only [List.length_singleton] <;> omega
  | cons c inner ih =>
    unfold Text.doubleQuotes
    split
    · simp only [List.cons_append, List.length_cons, quoteReach]
      omega
    · next other =>
      simp only [List.cons_append, List.length_cons, quoteReach_other other]
      omega

/-- A lexeme reaches at least as far as any text that has the pattern of a token, whatever comes next. -/
theorem le_reach_of_matches {kind : TokenKind} {c : Char} {rest : List Char} (there : c :: rest ∈ kind.pattern)
    (back : List Char) : rest.length ≤ reach c (rest ++ back) := by
  have mark {word : String} {d : Char} (one : word.toList = [d]) (there : c :: rest ∈ Pattern.exactly word) :
      rest.length ≤ reach c (rest ++ back) := by
    have same : c :: rest = [d] := (Pattern.mem_exactly.mp there).trans one
    rw [(List.cons.inj same).2]
    exact Nat.zero_le _
  have word (there : c :: rest ∈ Pattern.name) : rest.length ≤ reach c (rest ++ back) := by
    obtain ⟨d, others, same, start, parts⟩ := Pattern.mem_name.mp there
    obtain ⟨rfl, rfl⟩ := List.cons.inj same
    rw [reach_name start]
    exact le_run parts back
  have reserved {text : String} (there : c :: rest ∈ Pattern.exactly text)
      (isName : text.toList ∈ Pattern.name) : rest.length ≤ reach c (rest ++ back) := by
    rw [Pattern.mem_exactly] at there
    rw [← there] at isName
    exact word isName
  cases kind with
  | literal value =>
    cases value with
    | null => exact reserved there (Pattern.mem_name.mpr ⟨'n', _, rfl, rfl, List.all_eq_true.mp rfl⟩)
    | bool value =>
      cases value with
      | true => exact reserved there (Pattern.mem_name.mpr ⟨'t', _, rfl, rfl, List.all_eq_true.mp rfl⟩)
      | false => exact reserved there (Pattern.mem_name.mpr ⟨'f', _, rfl, rfl, List.all_eq_true.mp rfl⟩)
    | int value =>
      obtain ⟨negative, digits, all, same⟩ := Pattern.mem_integer.mp there
      obtain ⟨d, front, rfl, digit, more⟩ := digits_cons all
      exact le_reach_signed digit (le_numberReach_whole more back) same
    | float value =>
      obtain ⟨negative, whole, fraction, tail, left, right, behind, same⟩ := Pattern.mem_decimal.mp there
      obtain ⟨d, front, rfl, digit, more⟩ := digits_cons left
      exact le_reach_signed digit (le_numberReach_point more right behind back) same
    | text value =>
      obtain ⟨inner, same⟩ := Pattern.mem_quoted.mp there
      obtain ⟨rfl, rfl⟩ := List.cons.inj same
      exact le_quoteReach inner back
  | name text => exact word there
  | _ => exact mark rfl there

/-! ## What lexemes look like -/

private theorem digits_run (text : List Char) : ∀ c ∈ text.take (run isDigit text), isDigit c = true := by
  rw [take_run]
  exact fun c member => List.all_eq_true.mp List.all_takeWhile c member

/-- An exponent that is reached over is one. -/
private theorem exponent_layout (text : List Char) :
    text.take (exponentReach text) ∈ Pattern.perhaps Pattern.exponent := by
  -- The three forms differ in the sign alone.
  have layout {mark c : Char} {sign rest : List Char}
      (marks : ((mark == 'e' || mark == 'E') && isDigit c) = true)
      (signs : sign = [] ∨ sign = ['+'] ∨ sign = ['-']) :
      mark :: (sign ++ c :: rest.take (run isDigit rest)) ∈ Pattern.perhaps Pattern.exponent := by
    obtain ⟨marks, digit⟩ := (Bool.and_eq_true _ _).mp marks
    have all : Digits (c :: rest.take (run isDigit rest)) :=
      ⟨List.cons_ne_nil _ _, List.forall_mem_cons.mpr ⟨digit, digits_run rest⟩⟩
    exact Pattern.mem_perhaps.mpr (.inr (Pattern.mem_exponent.mpr ⟨mark, sign, _, marks, signs, all, rfl⟩))
  have nothing : text.take 0 ∈ Pattern.perhaps Pattern.exponent := Pattern.mem_perhaps.mpr (.inl rfl)
  unfold exponentReach
  split
  · next mark c rest =>
    split
    · next marks =>
      rw [Nat.add_comm]
      exact layout marks (.inr (.inl rfl))
    · exact nothing
  · next mark c rest =>
    split
    · next marks =>
      rw [Nat.add_comm]
      exact layout marks (.inr (.inr rfl))
    · exact nothing
  · next mark c rest _ _ =>
    split
    · next marks =>
      rw [Nat.add_comm]
      exact layout marks (.inl rfl)
    · exact nothing
  · exact nothing

/-- What is reached over behind the digits of a number is nothing, or a point, digits and perhaps an
exponent. -/
private theorem fraction_layout (text : List Char) : text.take (fractionReach text) = [] ∨
    ∃ fraction tail, Digits fraction ∧ tail ∈ Pattern.perhaps Pattern.exponent ∧
      text.take (fractionReach text) = '.' :: (fraction ++ tail) := by
  unfold fractionReach
  split
  · next c rest =>
    split
    · next digit =>
      refine .inr ⟨c :: rest.take (run isDigit rest), _, ?_, exponent_layout (rest.dropWhile isDigit), ?_⟩
      · exact ⟨List.cons_ne_nil _ _, List.forall_mem_cons.mpr ⟨digit, digits_run rest⟩⟩
      · rw [Nat.add_assoc, Nat.add_comm, List.take_succ_cons, List.take_succ_cons, List.take_add, drop_run]
        rfl
    · exact .inl rfl
  · exact .inl rfl

/-- A numeral is an integer, or it has a point and is a decimal. -/
private theorem number_layout (negative : Bool) {d : Char} (digit : isDigit d = true) (behind : List Char) :
    let text := signed negative (d :: behind.take (numberReach behind))
    (∃ digits, Digits digits ∧ text = signed negative digits) ∨
      text ∈ Pattern.decimal ∧ text.contains '.' = true := by
  intro text
  have whole : Digits (d :: behind.take (run isDigit behind)) :=
    ⟨List.cons_ne_nil _ _, List.forall_mem_cons.mpr ⟨digit, digits_run behind⟩⟩
  have split : d :: behind.take (numberReach behind) = d :: behind.take (run isDigit behind) ++
      (behind.dropWhile isDigit).take (fractionReach (behind.dropWhile isDigit)) := by
    rw [numberReach, List.take_add, drop_run, List.cons_append]
  obtain none | ⟨fraction, tail, right, there, same⟩ := fraction_layout (behind.dropWhile isDigit)
  · refine .inl ⟨_, whole, ?_⟩
    rw [none, List.append_nil] at split
    exact congrArg (signed negative) split
  · rw [same] at split
    have layout : text = signed negative (d :: behind.take (run isDigit behind) ++ '.' :: (fraction ++ tail)) :=
      congrArg (signed negative) split
    refine .inr ⟨Pattern.mem_decimal.mpr ⟨negative, _, fraction, tail, whole, right, there, layout⟩, ?_⟩
    rw [layout]
    cases negative <;> simp [signed]

/-! ## What lexemes denote -/

/-- The number that digits denote, the first of which counts most. -/
def numeral (digits : List Char) : Nat := Nat.ofDigits 10 (digits.reverse.map fun c => c.toNat - '0'.toNat)

theorem digitsValue_eq_numeral (digits : List Char) : digitsValue digits = numeral digits := by
  have shifted (start : Nat) : digits.foldl (fun n c => 10 * n + (c.toNat - 48)) start =
      Nat.ofDigits 10 (digits.reverse.map fun c => c.toNat - '0'.toNat) + 10 ^ digits.length * start := by
    induction digits generalizing start with
    | nil => simp
    | cons c digits ih =>
      rw [List.foldl_cons, ih, List.reverse_cons, List.map_append, Nat.ofDigits_append, List.length_map,
        List.length_reverse, List.length_cons, List.map_singleton, Nat.ofDigits_singleton,
        show '0'.toNat = 48 from rfl]
      ring
  rw [digitsValue, shifted, Nat.mul_zero, Nat.add_zero, numeral]

/-- What a text stands for as a token: an integer for its digits, a number for a numeral that is read as it, a
text for what is between the quotes when each doubled quote is read as one, and a name for itself. A name is
none of the words for the other literals. -/
def Denotes (text : List Char) : TokenKind → Prop
  | .literal (.int value) => ∃ negative digits, Digits digits ∧ text = signed negative digits ∧
      value.toInt = if negative then -(numeral digits : Int) else numeral digits
  | .literal (.float value) => Binary64.ofText? text = some value
  | .literal (.text value) => ∃ inner, text = '\'' :: (inner ++ ['\'']) ∧
      value = String.ofList (Text.undoubled inner)
  | .name name => text = name.toList ∧ name ∉ ["true", "false", "null"]
  | _ => True

/-- A lexeme fits a token: it has the pattern of the token, and stands for it. -/
structure Fits (text : List Char) (kind : TokenKind) : Prop where
  pattern : text ∈ kind.pattern
  denotes : Denotes text kind

private theorem undoubled_doubleQuotes (text : List Char) :
    Text.undoubled (Text.doubleQuotes text) = text := by
  induction text with
  | nil => rfl
  | cons c text ih =>
    unfold Text.doubleQuotes
    split
    · next quote => rw [quote, Text.undoubled, ih]
    · next other =>
      rw [Text.undoubled, ih]
      exact fun rest same => absurd same other

private theorem fits_ofName {text : List Char} (isName : text ∈ Pattern.name) : Fits text (ofName text) := by
  unfold ofName
  split
  · next same => exact ⟨Pattern.mem_exactly.mpr same, trivial⟩
  · next notTrue =>
    split
    · next same => exact ⟨Pattern.mem_exactly.mpr same, trivial⟩
    · next notFalse =>
      split
      · next same => exact ⟨Pattern.mem_exactly.mpr same, trivial⟩
      · next notNull =>
        refine ⟨isName, (String.toList_ofList ..).symm, ?_⟩
        simp only [List.mem_cons, List.not_mem_nil, or_false, ← String.toList_inj, String.toList_ofList, not_or]
        exact ⟨notTrue, notFalse, notNull⟩

private theorem integer_of_ofInteger? {text : List Char} {value : Int} {kind : TokenKind}
    (read : signedValue? text = some value) (stands : ofInteger? text = some kind) :
    ∃ integer : Int64, kind = .literal (.int integer) ∧ integer.toInt = value := by
  simp only [ofInteger?, read] at stands
  split at stands
  · next range =>
    obtain rfl := Option.some.inj stands
    have above : value < 2 ^ 63 := Int.lt_of_le_of_lt range.2 (by decide)
    exact ⟨_, rfl, Int64.toInt_ofInt_of_le range.1 above⟩
  · cases stands

private theorem fits_ofNumber? {negative : Bool} {d : Char} (digit : isDigit d = true) (behind : List Char)
    {kind : TokenKind}
    (stands : ofNumber? (signed negative (d :: behind.take (numberReach behind))) = some kind) :
    Fits (signed negative (d :: behind.take (numberReach behind))) kind := by
  obtain ⟨digits, all, same⟩ | ⟨decimal, point⟩ := number_layout negative digit behind
  · rw [same] at stands ⊢
    rw [ofNumber?, contains_point_signed negative all, if_neg Bool.false_ne_true] at stands
    obtain ⟨value, rfl, value_eq⟩ := integer_of_ofInteger? (signedValue?_signed all) stands
    rw [digitsValue_eq_numeral] at value_eq
    exact ⟨Pattern.mem_integer.mpr ⟨negative, digits, all, rfl⟩, negative, digits, all, rfl, value_eq⟩
  · rw [ofNumber?, if_pos point] at stands
    obtain ⟨x, read, rfl⟩ := Option.map_eq_some_iff.mp stands
    exact ⟨decimal, read⟩

/-- A lexeme fits the token that it stands for. -/
theorem fits_of_stands {c : Char} {rest : List Char} {kind : TokenKind}
    (stands : ofLexeme? c (rest.take (reach c rest)) = some kind) :
    Fits (c :: rest.take (reach c rest)) kind := by
  unfold ofLexeme? at stands
  split at stands
  · next start =>
    obtain rfl := Option.some.inj stands
    refine fits_ofName (Pattern.mem_name.mpr ⟨c, _, rfl, start, ?_⟩)
    rw [reach_name start, take_run]
    exact fun d member => List.all_eq_true.mp List.all_takeWhile d member
  · next notStart =>
    split at stands
    · next isNumeral =>
      obtain ⟨negative, d, behind, same, digit⟩ := numeral_lexeme isNumeral
      rw [same] at stands ⊢
      exact fits_ofNumber? digit behind stands
    next notNumeral =>
    split at stands
    · obtain ⟨inner, read, rfl⟩ := Option.map_eq_some_iff.mp stands
      have quoted := Text.eq_quote_of_unquote? read
      rw [quoted]
      refine ⟨Pattern.mem_quoted.mpr ⟨inner, rfl⟩, Text.doubleQuotes inner, rfl, ?_⟩
      rw [undoubled_doubleQuotes]
    · next notQuote =>
      have alone : rest.take (reach c rest) = [] := by
        obtain ⟨notDigit, noMinus⟩ := (Bool.or_eq_false_iff ..).mp (Bool.eq_false_iff.mpr notNumeral)
        by_cases minus : c = '-'
        · rw [beq_iff_eq.mpr minus, Bool.true_and, Bool.not_eq_false'] at noMinus
          exact List.isEmpty_iff.mp noMinus
        · have nothing : reach c rest = 0 := by
            simp [reach, notStart, notDigit, minus, notQuote]
          rw [nothing, List.take_zero]
      rw [alone]
      unfold ofMark? at stands
      split at stands <;> cases stands <;> exact ⟨rfl, trivial⟩

end Lexer

end DotChain
