import DotChain.Binary64.Decimal

/-!
# Written forms of binary numbers

A form decides how the digits of a number are laid out. Three forms of shortest digits are in use,
and one that writes every digit of a whole number.
-/

namespace DotChain

namespace Binary64

/-- The decisions of a written form. -/
structure Form where
  /-- The powers of ten of the leading digit that are written without an exponent; all, if absent. -/
  plain : Option (Int × Int)
  /-- Whether a whole number that is written without an exponent ends in `.0`. -/
  marksWhole : Bool
  /-- Whether a positive exponent has a sign. -/
  signsExponent : Bool
  tie : Tie

/-- The form in which a value is displayed: never an exponent, no mark. -/
def Form.display : Form := ⟨none, false, false, .away⟩

/-- The form of a number in a document: plain from 10^-5 up to 10^16. -/
def Form.document : Form := ⟨some (-5, 15), true, true, .even⟩

/-- The form of a number in an outline of a tree: plain from 10^-4 up to 10^16. -/
def Form.outline : Form := ⟨some (-4, 15), true, false, .away⟩

/-- A run of zeros. -/
def zeros (count : Nat) : List Char := List.replicate count '0'

/-- Decimal digits without an exponent, where the number ends `point` places after the first digit's
left edge, which may lie left of the digits or right of them. -/
def layPlain (marksWhole : Bool) (digits : List Char) (point : Int) : List Char :=
  if point ≤ 0 then '0' :: '.' :: (zeros (-point).toNat ++ digits)
  else if point.toNat < digits.length then
    digits.take point.toNat ++ '.' :: digits.drop point.toNat
  else
    digits ++ zeros (point.toNat - digits.length) ++ (if marksWhole then ['.', '0'] else [])

/-- Decimal digits with an exponent: a point after the first digit, if another follows. -/
def layScientific (signsExponent : Bool) (digits : List Char) (exponent : Int) : List Char :=
  let mantissa := match digits with
    | [] => []
    | [d] => [d]
    | d :: rest => d :: '.' :: rest
  let sign := if exponent < 0 then ['-'] else if signsExponent then ['+'] else []
  mantissa ++ 'e' :: (sign ++ Nat.toDigits 10 exponent.natAbs)

/-- A finite magnitude in a form. -/
def Form.magnitude (form : Form) (x : Binary64) : List Char :=
  if x.isZero then layPlain form.marksWhole ['0'] 1
  else
    let decimal := x.shortest form.tie
    let digits := Nat.toDigits 10 decimal.digits
    let leading := decimal.exponent + digits.length - 1
    let isPlain := match form.plain with
      | none => true
      | some (least, greatest) => decide (least ≤ leading) && decide (leading ≤ greatest)
    if isPlain then layPlain form.marksWhole digits (leading + 1)
    else layScientific form.signsExponent digits leading

/-- A number in a form. -/
def Form.write (form : Form) (x : Binary64) : String :=
  if x.isNaN then "NaN"
  else
    let magnitude := if x.isInfinite then ['i', 'n', 'f'] else form.magnitude x
    String.ofList (if x.negative then '-' :: magnitude else magnitude)

/-- A number as it stands in an expression: a whole number has all of its digits and one decimal
place, so that it does not read back as an integer; any other number is displayed. -/
def literal (x : Binary64) : String :=
  if x.isFinite && x.isWhole then
    let digits := Nat.toDigits 10 (x.units / unitsInOne) ++ ['.', '0']
    String.ofList (if x.negative then '-' :: digits else digits)
  else Form.display.write x

end Binary64

end DotChain
