import DotChain.Binary64.Reading
import DotChain.SyntaxError
import DotChain.Text.Offset

/-!
# Reading tokens

A text is cut into lexemes from left to right. How far a lexeme reaches depends on its first
character; what it stands for depends on its whole text, and a lexeme that stands for nothing makes
the source invalid. A number may begin with a minus, and a string that is not closed reaches to the
end of the source.
-/

namespace DotChain.Lexer

/-- The characters that separate tokens and mean nothing else. -/
def isGap (c : Char) : Bool := c == ' ' || c == '\t' || c == '\r' || c == '\n'

theorem size_gap {c : Char} (blank : isGap c = true) : c.utf8Size = 1 := by
  simp only [isGap, Bool.or_eq_true, beq_iff_eq] at blank
  rcases blank with ((rfl | rfl) | rfl) | rfl <;> rfl

/-- The characters that begin a name. -/
def isNameStart (c : Char) : Bool :=
  ('a' ≤ c && c ≤ 'z') || ('A' ≤ c && c ≤ 'Z') || c == '_' || c == '$'

/-- The characters that continue a name. -/
def isNamePart (c : Char) : Bool := isNameStart c || isDigit c

/-! ## How far a lexeme reaches -/

/-- The number of characters at the front that satisfy a test. -/
def run (test : Char → Bool) (text : List Char) : Nat := (text.takeWhile test).length

/-- The length of an exponent at the front of a text: none unless a digit follows the mark and the
sign. -/
def exponentReach : List Char → Nat
  | mark :: '+' :: c :: rest =>
    if (mark == 'e' || mark == 'E') && isDigit c then 3 + run isDigit rest else 0
  | mark :: '-' :: c :: rest =>
    if (mark == 'e' || mark == 'E') && isDigit c then 3 + run isDigit rest else 0
  | mark :: c :: rest =>
    if (mark == 'e' || mark == 'E') && isDigit c then 2 + run isDigit rest else 0
  | _ => 0

/-- The length of a point, digits and perhaps an exponent at the front of a text: none unless a
digit follows the point. -/
def fractionReach : List Char → Nat
  | '.' :: c :: rest =>
    if isDigit c then 2 + run isDigit rest + exponentReach (rest.dropWhile isDigit) else 0
  | _ => 0

/-- How many characters after a first digit belong to a number. -/
def numberReach (rest : List Char) : Nat :=
  run isDigit rest + fractionReach (rest.dropWhile isDigit)

/-- How many characters after an opening quote belong to a string. A doubled quote does not close
it. -/
def quoteReach : List Char → Nat
  | [] => 0
  | '\'' :: '\'' :: rest => 2 + quoteReach rest
  | c :: rest => if c = '\'' then 1 else 1 + quoteReach rest

/-- How many characters after a first one belong to the same lexeme. -/
def reach (c : Char) (rest : List Char) : Nat :=
  if isNameStart c then run isNamePart rest
  else if isDigit c then numberReach rest
  else if c = '-' then
    match rest with
    | [] => 0
    | d :: rest => if isDigit d then 1 + numberReach rest else 0
  else if c = '\'' then quoteReach rest
  else 0

/-! ## What a lexeme stands for -/

/-- What a name stands for: a literal, if it is reserved. -/
def ofName (text : List Char) : TokenKind :=
  if text = ['t', 'r', 'u', 'e'] then .literal (.bool true)
  else if text = ['f', 'a', 'l', 's', 'e'] then .literal (.bool false)
  else if text = ['n', 'u', 'l', 'l'] then .literal .null
  else .name (String.ofList text)

/-- The integer that a signed numeral denotes, if it is in range. -/
def ofInteger? (text : List Char) : Option TokenKind :=
  match signedValue? text with
  | some value =>
    if Int64.minValue.toInt ≤ value ∧ value ≤ Int64.maxValue.toInt then
      some (.literal (.int (Int64.ofInt value)))
    else none
  | none => none

/-- The literal that a numeral denotes: a float, if it has a point. -/
def ofNumber? (text : List Char) : Option TokenKind :=
  if text.contains '.' then (Binary64.ofText? text).map fun x => .literal (.float x)
  else ofInteger? text

/-- The token that a single character stands for. -/
def ofMark? : Char → Option TokenKind
  | '.' => some .dot
  | ',' => some .comma
  | '(' => some .openParen
  | ')' => some .closeParen
  | '[' => some .openBracket
  | ']' => some .closeBracket
  | '=' => some .equals
  | '#' => some .hash
  | _ => none

/-- The token that a lexeme stands for. -/
def ofLexeme? (c : Char) (rest : List Char) : Option TokenKind :=
  if isNameStart c then some (ofName (c :: rest))
  else if isDigit c || (c == '-' && !rest.isEmpty) then ofNumber? (c :: rest)
  else if c = '\'' then
    (Text.unquote? (c :: rest)).map fun text => .literal (.text (String.ofList text))
  else ofMark? c

/-- The tokens of a text that stands at a byte offset of the source. -/
def scan (offset : Nat) : List Char → Except SyntaxError (List Token)
  | [] => .ok []
  | c :: rest =>
    if isGap c then scan (offset + 1) rest
    else
      let text := rest.take (reach c rest)
      let stop := offset + Text.bytes (c :: text)
      match Span.ofRange offset stop with
      | .error cause => .error (.sourceTooLarge cause)
      | .ok span =>
        match ofLexeme? c text with
        | none => .error (.invalidToken (String.ofList (c :: text)) span)
        | some kind => (scan stop (rest.drop (reach c rest))).map (⟨kind, span⟩ :: ·)
termination_by text => text.length
decreasing_by all_goals simp +arith

/-- The tokens of a source text. -/
def tokens (source : String) : Except SyntaxError (List Token) := scan 0 source.toList

end DotChain.Lexer
