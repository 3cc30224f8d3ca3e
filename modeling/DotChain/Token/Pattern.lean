import DotChain.Token.Lexer
import Mathlib.Computability.Language

/-!
# Patterns of tokens

What the text of a token looks like: the texts of the tokens of a kind form a language. How a source text is
cut into tokens is said without these languages (`Lexer.scan`).
-/

namespace DotChain

open scoped Computability

namespace Pattern

/-- One character that passes a test. -/
def one (test : Char → Bool) : Language Char := {text | ∃ c, test c = true ∧ text = [c]}

/-- One text alone. -/
def exactly (text : String) : Language Char := {text.toList}

/-- A text of a language, or nothing. -/
def perhaps (texts : Language Char) : Language Char := 1 + texts

/-- Digits, at least one. -/
def digits : Language Char := one isDigit * (one isDigit)∗

/-- Digits, perhaps behind a minus. -/
def integer : Language Char := perhaps (one (· == '-')) * digits

/-- A mark and digits, perhaps with a sign between them. -/
def exponent : Language Char :=
  one (fun c => c == 'e' || c == 'E') * perhaps (one fun c => c == '+' || c == '-') * digits

/-- Digits on both sides of a point, perhaps with a minus in front and an exponent behind. -/
def decimal : Language Char := integer * one (· == '.') * digits * perhaps exponent

/-- Between two quotes, characters that are no quotes, and doubled quotes. -/
def quoted : Language Char :=
  one (· == '\'') * (one (· != '\'') + exactly "''")∗ * one (· == '\'')

/-- A character that begins names and others that continue them. -/
def name : Language Char := one Lexer.isNameStart * (one Lexer.isNamePart)∗

end Pattern

/-- The pattern of the tokens of a kind. -/
def TokenKind.pattern : TokenKind → Language Char
  | .literal .null => Pattern.exactly "null"
  | .literal (.bool true) => Pattern.exactly "true"
  | .literal (.bool false) => Pattern.exactly "false"
  | .literal (.int _) => Pattern.integer
  | .literal (.float _) => Pattern.decimal
  | .literal (.text _) => Pattern.quoted
  | .name _ => Pattern.name
  | .dot => Pattern.exactly "."
  | .comma => Pattern.exactly ","
  | .openParen => Pattern.exactly "("
  | .closeParen => Pattern.exactly ")"
  | .openBracket => Pattern.exactly "["
  | .closeBracket => Pattern.exactly "]"
  | .equals => Pattern.exactly "="
  | .hash => Pattern.exactly "#"

/-- A text in which each doubled quote is read as one. -/
def Text.undoubled : List Char → List Char
  | '\'' :: '\'' :: rest => '\'' :: undoubled rest
  | c :: rest => c :: undoubled rest
  | [] => []

end DotChain
