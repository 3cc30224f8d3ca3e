import DotChain.Binary64.Basic

/-!
# Decimals that stand for binary numbers

A finite number is printed by the fewest significant digits that read back as it, and of those by
the nearest. Main statement:
`readsAs_of_candidate?`, what is chosen for a number of digits reads back.
-/

namespace DotChain

/-- The magnitude `digits * 10 ^ exponent`. -/
structure Decimal where
  digits : Nat
  exponent : Int
deriving DecidableEq

namespace Decimal

/-- The same magnitude with the trailing zeros of its digits moved into the exponent. -/
def strip (d : Decimal) : Decimal :=
  if _h : d.digits ≠ 0 ∧ d.digits % 10 = 0 then strip ⟨d.digits / 10, d.exponent + 1⟩ else d
termination_by d.digits
decreasing_by omega

end Decimal

namespace Binary64

/-- Which of two equally near decimals is taken. -/
inductive Tie where
  | away
  | even
deriving DecidableEq

/-- The power of ten of the leading digit of a finite magnitude other than zero. -/
def leadingExponent (x : Binary64) : Int :=
  (Nat.toDigits 10 (x.units * Nat.pow 10 324 / unitsInOne)).length - 325

/-- A finite magnitude as a quotient, counted in steps of `10 ^ exponent`. -/
def steps (x : Binary64) (exponent : Int) : Nat × Nat :=
  if 0 ≤ exponent then (x.units, unitsInOne * Nat.pow 10 exponent.toNat)
  else (x.units * Nat.pow 10 (-exponent).toNat, unitsInOne)

/-- Whether a decimal is read as the given number. -/
def readsAs (x : Binary64) (d : Decimal) : Bool := ofDecimal x.negative d.digits d.exponent == x

/-- The first of two decimals that reads back. -/
def firstReading (x : Binary64) (near far : Decimal) : Option Decimal :=
  if x.readsAs near then some near
  else if x.readsAs far then some far
  else none

/-- Of the two decimals that enclose `num / den` steps of `10 ^ exponent`, the nearer one that reads
back, else the other if it does. -/
def enclosing? (tie : Tie) (x : Binary64) (exponent : Int) (num den : Nat) : Option Decimal :=
  let below : Decimal := ⟨num / den, exponent⟩
  let above : Decimal := ⟨num / den + 1, exponent⟩
  let twice := 2 * (num % den)
  if twice < den ∨ (twice = den ∧ tie = .even ∧ below.digits % 2 = 0) then x.firstReading below above
  else x.firstReading above below

/-- The nearest decimal with so many significant digits that reads back as a number. -/
def candidate? (tie : Tie) (x : Binary64) (count : Nat) : Option Decimal :=
  let exponent := x.leadingExponent - count + 1
  enclosing? tie x exponent (x.steps exponent).1 (x.steps exponent).2

/-- Every digit of a finite magnitude. -/
def exactDecimal (x : Binary64) : Decimal := ⟨x.units * Nat.pow 5 1074, -1074⟩

/-- The fewest digits that read back as a finite number; all of them, if 17 do not. -/
def shortest (tie : Tie) (x : Binary64) : Decimal :=
  (((List.range 17).findSome? fun n => x.candidate? tie (n + 1)).getD x.exactDecimal).strip

theorem readsAs_of_firstReading {x : Binary64} {near far d : Decimal}
    (found : x.firstReading near far = some d) : x.readsAs d = true := by
  unfold firstReading at found
  split at found
  · simp_all
  · split at found <;> simp_all

theorem readsAs_of_enclosing? {tie : Tie} {x : Binary64} {exponent : Int} {num den : Nat} {d : Decimal}
    (found : enclosing? tie x exponent num den = some d) : x.readsAs d = true := by
  unfold enclosing? at found
  simp only at found
  split at found <;> exact readsAs_of_firstReading found

theorem readsAs_of_candidate? {tie : Tie} {x : Binary64} {count : Nat} {d : Decimal}
    (found : x.candidate? tie count = some d) : x.readsAs d = true := by
  unfold candidate? at found
  exact readsAs_of_enclosing? found

end Binary64

end DotChain
