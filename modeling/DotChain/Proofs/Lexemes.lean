import DotChain.Proofs.Numerals
import DotChain.Proofs.Tiling

/-!
# Lexemes

How a text is cut into tokens, without the places of the tokens. Main statements: reading tokens
succeeds exactly if a text that is not too long can be cut (`lexes_of_scan`, `scan_of_lexes`), texts that
are joined at a character that ends tokens are cut into the tokens of both (`Lexes.append`), names are never
reserved (`genuine_of_lexes`), and what is written for a literal is one lexeme, whatever comes next, if that
does not continue it (`lexes_literal`).
-/

namespace DotChain.Lexer

/-- A text is cut into lexemes that stand for tokens of the given kinds. -/
inductive Lexes : List Char → List TokenKind → Prop where
  | nothing : Lexes [] []
  | gap {c : Char} {rest : List Char} {kinds : List TokenKind} (blank : isGap c = true)
    (others : Lexes rest kinds) : Lexes (c :: rest) kinds
  | lexeme {c : Char} {rest : List Char} {kind : TokenKind} {kinds : List TokenKind}
    (visible : isGap c = false) (stands : ofLexeme? c (rest.take (reach c rest)) = some kind)
    (others : Lexes (rest.drop (reach c rest)) kinds) : Lexes (c :: rest) (kind :: kinds)

/-! ## Reading tokens -/

theorem lexes_of_tiles {offset : Nat} {text : List Char} {tokens : List Token}
    (tiles : Tiles offset text tokens) : Lexes text (tokens.map Token.kind) := by
  induction tiles with
  | nothing => exact .nothing
  | gap blank _ ih => exact .gap blank ih
  | lexeme visible reaches stands _ ih =>
    apply Lexes.lexeme visible
    · rwa [reaches, List.take_left]
    · rwa [reaches, List.drop_left]

/-- Wherever a text stands, its tokens stand there, too. -/
theorem tiles_of_lexes {text : List Char} {kinds : List TokenKind} (lexes : Lexes text kinds) (offset : Nat) :
    ∃ tokens, Tiles offset text tokens ∧ tokens.map Token.kind = kinds := by
  induction lexes generalizing offset with
  | nothing => exact ⟨[], .nothing offset, rfl⟩
  | gap blank _ ih =>
    obtain ⟨tokens, tiles, same⟩ := ih (offset + 1)
    exact ⟨tokens, .gap blank tiles, same⟩
  | @lexeme c rest kind kinds visible stands _ ih =>
    obtain ⟨tokens, tiles, rfl⟩ := ih (offset + Text.bytes (c :: rest.take (reach c rest)))
    exact ⟨_, .front visible stands tiles, rfl⟩

theorem lexes_of_scan {offset : Nat} {text : List Char} {tokens : List Token}
    (read : scan offset text = .ok tokens) : Lexes text (tokens.map Token.kind) :=
  lexes_of_tiles (tiles_of_scan read)

theorem scan_of_lexes {text : List Char} {kinds : List TokenKind} (lexes : Lexes text kinds) :
    ∀ offset, offset + Text.bytes text ≤ Span.offsetLimit →
    ∃ tokens, scan offset text = .ok tokens ∧ tokens.map Token.kind = kinds := by
  intro offset fits
  obtain ⟨tokens, tiles, same⟩ := tiles_of_lexes lexes offset
  exact ⟨tokens, scan_of_tiles tiles fits, same⟩

/-- Every token is what a lexeme stands for. -/
theorem Lexes.stands {text : List Char} {kinds : List TokenKind} {kind : TokenKind} (lexes : Lexes text kinds)
    (member : kind ∈ kinds) : ∃ (c : Char) (rest : List Char),
    ofLexeme? c (rest.take (reach c rest)) = some kind := by
  induction lexes with
  | nothing => cases member
  | gap _ _ ih => exact ih member
  | @lexeme c rest _ _ _ stands _ ih =>
    obtain rfl | later := List.mem_cons.mp member
    · exact ⟨c, rest, stands⟩
    · exact ih later

/-- A text that goes on with a character that ends tokens is cut as it is alone. -/
theorem Lexes.append {text rest : List Char} {kinds more : List TokenKind} (lexes : Lexes text kinds)
    (breaks : Breaks rest) (others : Lexes rest more) : Lexes (text ++ rest) (kinds ++ more) := by
  induction lexes with
  | nothing => exact others
  | gap blank _ ih => exact .gap blank ih
  | @lexeme c text kind kinds visible stands _ ih =>
    have inside := (local_reach c).le_length text
    have same := reach_append stands breaks
    rw [List.cons_append, List.cons_append]
    refine .lexeme visible ?_ ?_
    · rw [same, List.take_append_of_le_length inside]
      exact stands
    · rw [same, List.drop_append_of_le_length inside]
      exact ih

/-! ## Names -/

theorem reach_name {c : Char} {rest : List Char} (start : isNameStart c = true) :
    reach c rest = run isNamePart rest := by
  unfold reach
  rw [if_pos start]

theorem take_run (test : Char → Bool) (text : List Char) :
    text.take (run test text) = text.takeWhile test := by
  calc text.take (run test text)
      = (text.takeWhile test ++ text.dropWhile test).take (text.takeWhile test).length := by
        rw [List.takeWhile_append_dropWhile, run]
    _ = text.takeWhile test := List.take_left

/-- A text is a name: it has the characters of one and is not reserved. -/
structure IsName (text : List Char) : Prop where
  spelled : ∃ c rest, text = c :: rest ∧ isNameStart c = true ∧ ∀ d ∈ rest, isNamePart d = true
  free : ofName text = .name (String.ofList text)

/-- What a token that was read is known to be: its name is one. -/
def Genuine : TokenKind → Prop
  | .name text => IsName text.toList
  | _ => True

private theorem ofName_name {text : List Char} {name : String} (stands : ofName text = .name name) :
    name = String.ofList text := by
  unfold ofName at stands
  split at stands
  · cases stands
  · split at stands
    · cases stands
    · split at stands
      · cases stands
      · exact (TokenKind.name.inj stands).symm

private theorem not_name_ofNumber? (text : List Char) (name : String) :
    ofNumber? text ≠ some (.name name) := by
  intro stands
  unfold ofNumber? at stands
  split at stands
  · cases value : Binary64.ofText? text <;> simp [value] at stands
  · unfold ofInteger? at stands
    split at stands
    · split at stands <;> cases stands
    · cases stands

private theorem genuine_ofLexeme? {c : Char} {rest : List Char} {kind : TokenKind}
    (stands : ofLexeme? c (rest.take (reach c rest)) = some kind) : Genuine kind := by
  cases kind with
  | name text =>
    unfold ofLexeme? at stands
    split at stands
    · next start =>
      have spelled := Option.some.inj stands
      obtain rfl := ofName_name spelled
      have parts : rest.take (reach c rest) = rest.takeWhile isNamePart := by
        rw [reach_name start, take_run]
      rw [parts] at spelled ⊢
      refine ⟨?_, ?_⟩
      · rw [String.toList_ofList]
        exact ⟨c, _, rfl, start, fun d member => List.all_eq_true.mp List.all_takeWhile d member⟩
      · rw [String.toList_ofList]
        exact spelled
    · split at stands
      · exact absurd stands (not_name_ofNumber? _ _)
      · split at stands
        · cases value : Text.unquote? (c :: rest.take (reach c rest)) <;> simp [value] at stands
        · unfold ofMark? at stands
          split at stands <;> cases stands
  | _ => trivial

/-- Every name that is read is one. -/
theorem genuine_of_lexes {text : List Char} {kinds : List TokenKind} (lexes : Lexes text kinds) :
    ∀ kind ∈ kinds, Genuine kind := by
  intro kind member
  obtain ⟨c, rest, stands⟩ := lexes.stands member
  exact genuine_ofLexeme? stands

/-! ## Where a lexeme ends -/

/-- What may come after a name, a number or a string without continuing it. -/
def Stops : List Char → Prop
  | [] => True
  | ['.'] => True
  | '.' :: c :: _ => isDigit c = false
  | c :: _ => isNamePart c = false ∧ c ≠ '\''

/-- A character that continues nothing may come after anything. -/
theorem stops_cons {c : Char} (rest : List Char) (part : isNamePart c = false) (quote : c ≠ '\'')
    (point : c ≠ '.') : Stops (c :: rest) := by
  unfold Stops
  split <;> simp_all

private theorem stops_part {rest : List Char} (stops : Stops rest) :
    ∀ c ∈ rest.head?, isNamePart c = false := by
  unfold Stops at stops
  split at stops
  · simp
  · simp [isNamePart, isNameStart, isDigit]
  · simp [isNamePart, isNameStart, isDigit]
  · simpa using stops.1

private theorem stops_digit {rest : List Char} (stops : Stops rest) :
    ∀ c ∈ rest.head?, isDigit c = false := by
  intro c member
  have part := stops_part stops c member
  rw [isNamePart, Bool.or_eq_false_iff] at part
  exact part.2

private theorem stops_fraction {rest : List Char} (stops : Stops rest) : fractionReach rest = 0 := by
  unfold fractionReach
  split
  · next c others =>
    have ends : isDigit c = false := stops
    rw [ends]
    rfl
  · rfl

private theorem stops_exponent {rest : List Char} (stops : Stops rest) : exponentReach rest = 0 := by
  have mark : ∀ c ∈ rest.head?, (c == 'e' || c == 'E') = false := by
    intro c member
    have part := stops_part stops c member
    rw [Bool.eq_false_iff]
    intro letter
    rw [Bool.or_eq_true, beq_iff_eq, beq_iff_eq] at letter
    rcases letter with rfl | rfl <;> cases part
  unfold exponentReach
  split <;> first | rfl | (rw [mark _ rfl]; rfl)

private theorem visible_part {c : Char} (part : isNamePart c = true) : isGap c = false := by
  rw [Bool.eq_false_iff]
  intro gap
  simp only [isGap, Bool.or_eq_true, beq_iff_eq] at gap
  rcases gap with ((rfl | rfl) | rfl) | rfl <;> cases part

/-- A text that ends where its first lexeme does is cut there. -/
private theorem lexes_front (c : Char) (front : List Char) {rest : List Char} {kind : TokenKind}
    {kinds : List TokenKind} (visible : isGap c = false)
    (reaches : reach c (front ++ rest) = front.length) (stands : ofLexeme? c front = some kind)
    (others : Lexes rest kinds) : Lexes (c :: (front ++ rest)) (kind :: kinds) := by
  apply Lexes.lexeme visible
  · rw [reaches, List.take_left]
    exact stands
  · rw [reaches, List.drop_left]
    exact others

/-- A mark is a lexeme by itself. -/
theorem lexes_mark {c : Char} {rest : List Char} {kind : TokenKind} {kinds : List TokenKind}
    (stands : ofMark? c = some kind) (others : Lexes rest kinds) : Lexes (c :: rest) (kind :: kinds) := by
  have marks : isGap c = false ∧ reach c rest = 0 ∧ ofLexeme? c [] = some kind := by
    unfold ofMark? at stands
    split at stands <;> cases stands <;> exact ⟨rfl, rfl, rfl⟩
  exact lexes_front c [] marks.1 marks.2.1 marks.2.2 others

/-- A word is a lexeme up to what stops it. -/
theorem lexes_word (c : Char) (word : List Char) {rest : List Char} {kinds : List TokenKind}
    (start : isNameStart c = true) (parts : ∀ d ∈ word, isNamePart d = true) (stops : Stops rest)
    (others : Lexes rest kinds) : Lexes (c :: (word ++ rest)) (ofName (c :: word) :: kinds) := by
  have part : isNamePart c = true := by
    rw [isNamePart, start, Bool.true_or]
  refine lexes_front c word (visible_part part) ?_ ?_ others
  · rw [reach_name start, run, (takeWhile_stops parts rest (stops_part stops)).1]
  · rw [ofLexeme?, if_pos start]

theorem lexes_name {text rest : List Char} {kinds : List TokenKind} (name : IsName text)
    (stops : Stops rest) (others : Lexes rest kinds) :
    Lexes (text ++ rest) (.name (String.ofList text) :: kinds) := by
  obtain ⟨⟨c, word, rfl, start, parts⟩, free⟩ := name
  rw [← free]
  exact lexes_word c word start parts stops others

/-! ## Numbers -/

private theorem numberReach_whole {front rest : List Char} (digits : ∀ d ∈ front, isDigit d = true)
    (stops : Stops rest) : numberReach (front ++ rest) = front.length := by
  obtain ⟨taken, left⟩ := takeWhile_stops digits rest (stops_digit stops)
  rw [numberReach, run, taken, left, stops_fraction stops, Nat.add_zero]

private theorem numberReach_point {front fraction rest : List Char}
    (digits : ∀ d ∈ front, isDigit d = true) (after : Digits fraction) (stops : Stops rest) :
    numberReach (front ++ '.' :: (fraction ++ rest)) = (front ++ '.' :: fraction).length := by
  obtain ⟨taken, left⟩ := takeWhile_stops digits ('.' :: (fraction ++ rest)) (by simp [isDigit])
  obtain ⟨d, others, rfl, digit, more⟩ := digits_cons after
  obtain ⟨taken', left'⟩ := takeWhile_stops more rest (stops_digit stops)
  rw [numberReach, run, taken, left]
  simp only [List.cons_append, fractionReach, digit, if_true, run, taken', left', stops_exponent stops,
    List.length_append, List.length_cons]
  omega

theorem notStart_digit {c : Char} (digit : isDigit c = true) : isNameStart c = false := by
  have bounds : '0' ≤ c ∧ c ≤ '9' := by simpa [isDigit] using digit
  have lower : ¬ 'a' ≤ c := fun least => absurd (Char.le_trans least bounds.2) (by decide)
  have upper : ¬ 'A' ≤ c := fun least => absurd (Char.le_trans least bounds.2) (by decide)
  have other : c ≠ '_' ∧ c ≠ '$' := by
    constructor <;> rintro rfl <;> cases digit
  simp [isNameStart, lower, upper, other]

theorem notDigit_start {c : Char} (start : isNameStart c = true) : isDigit c = false := by
  rw [Bool.eq_false_iff]
  intro digit
  rw [notStart_digit digit] at start
  cases start

/-- A lexeme that is a numeral begins with a digit after its sign, and reaches as far from there as a number
does. -/
theorem numeral_lexeme {c : Char} {rest : List Char}
    (numeral : (isDigit c || c == '-' && !(rest.take (reach c rest)).isEmpty) = true) :
    ∃ (negative : Bool) (d : Char) (behind : List Char),
      c :: rest.take (reach c rest) = signed negative (d :: behind.take (numberReach behind)) ∧
      isDigit d = true := by
  obtain digit | minus := (Bool.or_eq_true _ _).mp numeral
  · have reaches : reach c rest = numberReach rest := by
      unfold reach
      rw [notStart_digit digit, if_neg Bool.false_ne_true, if_pos digit]
    exact ⟨false, c, rest, by rw [reaches]; rfl, digit⟩
  · obtain ⟨sign, some⟩ := (Bool.and_eq_true _ _).mp minus
    obtain rfl := eq_of_beq sign
    cases rest with
    | nil => cases some
    | cons d rest =>
      cases digit : isDigit d with
      | true =>
        have reaches : reach '-' (d :: rest) = numberReach rest + 1 := by
          change (if isDigit d then 1 + numberReach rest else 0) = _
          rw [if_pos digit, Nat.add_comm]
        rw [reaches, List.take_succ_cons]
        exact ⟨true, d, rest, rfl, digit⟩
      | false =>
        have reaches : reach '-' (d :: rest) = 0 := by
          change (if isDigit d then 1 + numberReach rest else 0) = _
          rw [digit]
          rfl
        rw [reaches] at some
        cases some

/-- A numeral is a lexeme, if its digits reach up to what follows. -/
private theorem lexes_number {negative : Bool} {c : Char} {front rest : List Char} {kind : TokenKind}
    {kinds : List TokenKind} (digit : isDigit c = true)
    (reaches : numberReach (front ++ rest) = front.length)
    (stands : ofNumber? (signed negative (c :: front)) = some kind) (others : Lexes rest kinds) :
    Lexes (signed negative (c :: front) ++ rest) (kind :: kinds) := by
  have part : isNamePart c = true := by
    rw [isNamePart, digit, Bool.or_true]
  have start : isNameStart c = false := notStart_digit digit
  cases negative with
  | true =>
    refine lexes_front '-' (c :: front) rfl ?_ ?_ others
    · change (if isDigit c then 1 + numberReach (front ++ rest) else 0) = front.length + 1
      rw [if_pos digit, reaches, Nat.add_comm]
    · exact stands
  | false =>
    refine lexes_front c front (visible_part part) ?_ ?_ others
    · unfold reach
      rw [start, digit, if_neg Bool.false_ne_true, if_pos rfl, reaches]
    · unfold ofLexeme?
      rw [start, digit, if_neg Bool.false_ne_true, Bool.true_or, if_pos rfl]
      exact stands

theorem contains_point_signed (negative : Bool) {text : List Char} (digits : Digits text) :
    (signed negative text).contains '.' = false := by
  rw [Bool.eq_false_iff]
  intro member
  have inside : '.' ∈ text := by
    cases negative with
    | true => simpa [signed] using member
    | false => simpa [signed] using member
  cases digits.digits '.' inside

/-- An integer is a lexeme. -/
theorem lexes_int (value : Int64) {rest : List Char} {kinds : List TokenKind} (stops : Stops rest)
    (others : Lexes rest kinds) :
    Lexes ((toString value.toInt).toList ++ rest) (.literal (.int value) :: kinds) := by
  have read := signedValue?_toString value.toInt
  rw [toList_toString_int] at read ⊢
  have all := digits_toDigits value.toInt.natAbs
  have noPoint := contains_point_signed (decide (value.toInt < 0)) all
  obtain ⟨c, front, text, digit, digits⟩ := digits_cons all
  rw [text] at read noPoint ⊢
  refine lexes_number digit (numberReach_whole digits stops) ?_ others
  rw [ofNumber?, if_neg (by rw [noPoint]; exact Bool.false_ne_true)]
  simp only [ofInteger?, read]
  rw [if_pos ⟨value.minValue_le_toInt, value.toInt_le⟩, Int64.ofInt_toInt]

/-- A finite floating point number is a lexeme. -/
theorem lexes_float {x : Binary64} {rest : List Char} {kinds : List TokenKind}
    (finite : x.isFinite = true) (stops : Stops rest) (others : Lexes rest kinds) :
    Lexes (x.literal.toList ++ rest) (.literal (.float x) :: kinds) := by
  have value := Binary64.ofText?_literal finite
  obtain ⟨whole, fraction, left, right, text, _⟩ := Binary64.literal_layout finite
  obtain ⟨c, front, rfl, digit, digits⟩ := digits_cons left
  rw [text] at value ⊢
  rw [List.cons_append] at *
  refine lexes_number digit ?_ ?_ others
  · rw [List.append_assoc, List.cons_append]
    exact numberReach_point digits right stops
  · have point : (signed x.negative (c :: (front ++ '.' :: fraction))).contains '.' = true := by
      cases x.negative <;> simp [signed]
    rw [ofNumber?, if_pos point, value]
    rfl

/-! ## Strings -/

private theorem quoteReach_doubleQuotes {rest : List Char} (stops : rest.head? ≠ some '\'')
    (text : List Char) :
    quoteReach (Text.doubleQuotes text ++ '\'' :: rest) = (Text.doubleQuotes text).length + 1 := by
  induction text with
  | nil =>
    cases rest with
    | nil => rfl
    | cons c rest =>
      have other : c ≠ '\'' := fun same => stops (congrArg some same)
      simp [Text.doubleQuotes, quoteReach, other]
  | cons c text ih =>
    unfold Text.doubleQuotes
    by_cases quote : c = '\''
    · rw [if_pos quote]
      simp only [List.cons_append, quoteReach, ih, List.length_cons]
      omega
    · rw [if_neg quote]
      simp [quoteReach, quote, ih]
      omega

/-- A quoted text is a lexeme. -/
theorem lexes_text (text : String) {rest : List Char} {kinds : List TokenKind} (stops : Stops rest)
    (others : Lexes rest kinds) :
    Lexes (Text.quote text.toList ++ rest) (.literal (.text text) :: kinds) := by
  have front : rest.head? ≠ some '\'' := by
    intro quote
    obtain ⟨others, rfl⟩ := List.head?_eq_some_iff.mp quote
    exact stops.2 rfl
  have value : Text.unquote? ('\'' :: (Text.doubleQuotes text.toList ++ ['\''])) = some text.toList :=
    Text.unquote?_quote text.toList
  refine lexes_front '\'' (Text.doubleQuotes text.toList ++ ['\'']) rfl ?_ ?_ others
  · rw [List.append_assoc, List.singleton_append, List.length_append]
    exact quoteReach_doubleQuotes front text.toList
  · change (Text.unquote? _).map _ = _
    rw [value]
    simp

/-- What is written for a literal is a lexeme. -/
theorem lexes_literal {value : Literal} {rest : List Char} {kinds : List TokenKind}
    (finite : ∀ x, value = .float x → x.isFinite = true) (stops : Stops rest)
    (others : Lexes rest kinds) : Lexes (value.render.toList ++ rest) (.literal value :: kinds) := by
  cases value with
  | null => exact lexes_word 'n' ['u', 'l', 'l'] rfl (List.all_eq_true.mp rfl) stops others
  | bool value =>
    cases value with
    | true => exact lexes_word 't' ['r', 'u', 'e'] rfl (List.all_eq_true.mp rfl) stops others
    | false => exact lexes_word 'f' ['a', 'l', 's', 'e'] rfl (List.all_eq_true.mp rfl) stops others
  | int value => exact lexes_int value stops others
  | float x => exact lexes_float (finite x rfl) stops others
  | text value =>
    rw [Literal.render, String.toList_ofList]
    exact lexes_text value stops others

end DotChain.Lexer
