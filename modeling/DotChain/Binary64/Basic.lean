/-!
# Binary floating point of 64 bits

A number is given by the three fields of its interchange format, so equality of numbers is equality
of bit patterns. Every finite magnitude is a whole number of units of 2^-1074, and arithmetic works
on these units exactly, rounding once. Main statement: `units_ofUnits_cut` (of a magnitude that is not
too great, the 53 highest bits are stored).
-/

namespace DotChain

/-- A floating point number: its sign, its exponent field and its fraction field. -/
structure Binary64 where
  negative : Bool
  exponent : Fin 2048
  fraction : Fin 4503599627370496
deriving DecidableEq

namespace Binary64

/-- The weight of the implicit leading bit of a normal number: 2^52. -/
def hidden : Nat := 4503599627370496

/-- The number of units in 1. -/
def unitsInOne : Nat := Nat.pow 2 1074

/-- Whether the pattern stands for no number. -/
def isNaN (x : Binary64) : Bool := x.exponent.val == 2047 && x.fraction.val != 0

/-- Whether the pattern stands for one of the two infinities. -/
def isInfinite (x : Binary64) : Bool := x.exponent.val == 2047 && x.fraction.val == 0

/-- Whether the pattern stands for a number of finite magnitude. -/
def isFinite (x : Binary64) : Bool := x.exponent.val != 2047

/-- Whether the pattern is one of the two zeros. -/
def isZero (x : Binary64) : Bool := x.exponent.val == 0 && x.fraction.val == 0

/-- The magnitude of a finite number, counted in units of 2^-1074. -/
def units (x : Binary64) : Nat :=
  if x.exponent.val = 0 then x.fraction.val
  else (hidden + x.fraction.val) * Nat.pow 2 (x.exponent.val - 1)

/-- The infinity of a sign. -/
def infinity (negative : Bool) : Binary64 := ⟨negative, 2047, 0⟩

/-- The pattern that stands for no number when none is given. -/
def nan (negative : Bool) : Binary64 := ⟨negative, 2047, 2251799813685248⟩

/-- The zero of a sign. -/
def zero (negative : Bool) : Binary64 := ⟨negative, 0, 0⟩

/-- Comparison by value: nothing equals a pattern that stands for no number, and the zeros are equal. -/
def sameNumber (x y : Binary64) : Bool :=
  !x.isNaN && !y.isNaN && (x == y || (x.isZero && y.isZero))

/-- Whether a magnitude has no fractional part. -/
def isWhole (x : Binary64) : Bool := x.units % unitsInOne == 0

/-! ## Rounding -/

/-- The whole number nearest to a quotient; a half goes to the even neighbour. -/
def nearestEven (num den : Nat) : Nat :=
  let quotient := num / den
  let twice := 2 * (num % den)
  if twice < den then quotient
  else if den < twice then quotient + 1
  else quotient + quotient % 2

/-- A magnitude in units, rounded to 53 significant bits and to whole units. -/
def roundUnits (num den : Nat) : Nat :=
  let step := Nat.pow 2 ((num / den).log2 - 52)
  nearestEven num (den * step) * step

/-- The number of a magnitude in units that has at most 53 significant bits. A magnitude of 2^1024
or more is infinite. -/
def ofUnits (negative : Bool) (magnitude : Nat) : Binary64 :=
  let scale := magnitude.log2 - 52
  if magnitude < hidden then ⟨negative, 0, Fin.ofNat _ magnitude⟩
  else if scale + 1 < 2047 then
    ⟨negative, Fin.ofNat _ (scale + 1), Fin.ofNat _ (magnitude / Nat.pow 2 scale)⟩
  else infinity negative

/-- A magnitude that is not too great is stored with its 53 highest bits. -/
theorem units_ofUnits_cut (negative : Bool) {magnitude : Nat} (fits : magnitude.log2 - 52 + 1 < 2047) :
    (ofUnits negative magnitude).units =
      magnitude / Nat.pow 2 (magnitude.log2 - 52) * Nat.pow 2 (magnitude.log2 - 52) := by
  simp only [ofUnits, fits, if_true]
  by_cases small : magnitude < hidden
  · have scale : magnitude.log2 - 52 = 0 := by
      by_cases zero : magnitude = 0
      · rw [zero, Nat.log2_zero]
      · have : magnitude.log2 < 52 := (Nat.log2_lt zero).mpr small
        omega
    have unit : Nat.pow 2 0 = 1 := rfl
    rw [if_pos small, scale, unit, Nat.div_one, Nat.mul_one]
    simp only [units, Fin.ofNat, Fin.val_zero, if_true]
    exact Nat.mod_eq_of_lt small
  · rw [if_neg small]
    have large : hidden ≤ magnitude := Nat.le_of_not_lt small
    have nonzero : magnitude ≠ 0 := by simp only [hidden] at large; omega
    have enough : 52 ≤ magnitude.log2 := (Nat.le_log2 nonzero).mpr large
    have below : Nat.pow 2 magnitude.log2 ≤ magnitude := Nat.log2_self_le nonzero
    have above : magnitude < Nat.pow 2 (magnitude.log2 + 1) := Nat.lt_log2_self
    generalize scale : magnitude.log2 - 52 = s at *
    have log : magnitude.log2 = 52 + s := by omega
    have split : Nat.pow 2 (52 + s) = hidden * Nat.pow 2 s := Nat.pow_add 2 52 s
    have double : Nat.pow 2 (52 + s + 1) = Nat.pow 2 (52 + s) * 2 := rfl
    rw [log, split] at below
    rw [log, double, split] at above
    have positive : 0 < Nat.pow 2 s := Nat.two_pow_pos s
    have least : hidden ≤ magnitude / Nat.pow 2 s := (Nat.le_div_iff_mul_le positive).mpr below
    have greatest : magnitude / Nat.pow 2 s < hidden * 2 := by
      refine (Nat.div_lt_iff_lt_mul positive).mpr ?_
      rw [Nat.mul_right_comm]
      exact above
    have exponent : (Fin.ofNat 2048 (s + 1)).val = s + 1 := Nat.mod_eq_of_lt (by omega)
    have fraction : (Fin.ofNat 4503599627370496 (magnitude / Nat.pow 2 s)).val =
        magnitude / Nat.pow 2 s - hidden := by
      simp only [Fin.ofNat, hidden] at *
      omega
    simp only [units, exponent, fraction, Nat.succ_ne_zero, if_false, Nat.add_sub_cancel]
    rw [Nat.add_sub_cancel' least]

/-- The number nearest to a quotient. -/
def ofRatio (negative : Bool) (num den : Nat) : Binary64 :=
  ofUnits negative (roundUnits (num * unitsInOne) den)

/-- The number nearest to a natural number. -/
def ofNat (n : Nat) : Binary64 := ofRatio false n 1

/-- The number nearest to `digits * 10 ^ exponent`. Beyond the exponents that decide between zero,
a finite number and infinity, the exponent does not matter, so it is cut there. -/
def ofDecimal (negative : Bool) (digits : Nat) (exponent : Int) : Binary64 :=
  let cut := max (-((Nat.toDigits 10 digits).length + 330 : Int)) (min exponent 310)
  if 0 ≤ cut then ofRatio negative (digits * Nat.pow 10 cut.toNat) 1
  else ofRatio negative digits (Nat.pow 10 (-cut).toNat)

/-- The product of two finite magnitudes, rounded. -/
def scaleUp (x y : Binary64) : Binary64 :=
  ofRatio x.negative (x.units * y.units) (unitsInOne * unitsInOne)

/-- The quotient of two finite magnitudes, rounded. -/
def scaleDown (x y : Binary64) : Binary64 := ofRatio x.negative x.units y.units

/-- The number with the other sign. -/
def neg (x : Binary64) : Binary64 := { x with negative := !x.negative }

end Binary64

end DotChain
