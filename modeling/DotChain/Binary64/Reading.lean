import DotChain.Binary64.Basic

/-!
# Reading numbers

Decimal numerals with an optional sign, point and exponent, and the words for the infinities and for
no number. A numeral is read as the nearest number, so one beyond the greatest finite number is read
as an infinity.
-/

namespace DotChain

/-- Whether a character is a decimal digit. -/
def isDigit (c : Char) : Bool := '0' ≤ c && c ≤ '9'

/-- The number that decimal digits denote. -/
def digitsValue (digits : List Char) : Nat :=
  digits.foldl (fun n c => 10 * n + (c.toNat - 48)) 0

/-- Removes a leading sign; the flag tells whether it was a minus. -/
def takeSign : List Char → Bool × List Char
  | '-' :: rest => (true, rest)
  | '+' :: rest => (false, rest)
  | text => (false, text)

theorem takeSign_length (text : List Char) : (takeSign text).2.length ≤ text.length := by
  unfold takeSign
  split <;> simp

/-- The number that decimal digits with an optional sign denote. -/
def signedValue? (text : List Char) : Option Int :=
  let (negative, digits) := takeSign text
  if digits ≠ [] ∧ digits.all isDigit then
    some (if negative then -(digitsValue digits : Int) else digitsValue digits)
  else none

namespace Binary64

/-- A numeral without sign: digits with at most one point, then perhaps an exponent. -/
def ofNumeral? (negative : Bool) (text : List Char) : Option Binary64 := do
  let whole := text.takeWhile isDigit
  let (fraction, rest) := match text.dropWhile isDigit with
    | '.' :: rest => (rest.takeWhile isDigit, rest.dropWhile isDigit)
    | rest => ([], rest)
  let exponent ← match rest with
    | [] => some 0
    | c :: rest => if c = 'e' ∨ c = 'E' then signedValue? rest else none
  if whole.isEmpty && fraction.isEmpty then none
  else
    return ofDecimal negative (digitsValue (whole ++ fraction)) (exponent - fraction.length)

/-- The number that a text denotes. The words are read in any case. -/
def ofText? (text : List Char) : Option Binary64 :=
  let (negative, rest) := takeSign text
  let word := rest.map Char.toLower
  if word = ['i', 'n', 'f'] ∨ word = ['i', 'n', 'f', 'i', 'n', 'i', 't', 'y'] then
    some (infinity negative)
  else if word = ['n', 'a', 'n'] then some (nan negative)
  else ofNumeral? negative rest

end Binary64

end DotChain
