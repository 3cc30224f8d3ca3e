import DotChain.Binary64.Reading
import DotChain.Json.Basic

/-!
# Numbers in documents

A numeral without a point and without an exponent that fits 64 bits with a sign is an integer; only
minus zero is not. Every other numeral is a float. Its value is found in several steps, each of which
rounds: the leading digits that fit 64 bits form a significand, and the significand is scaled by
powers of ten. A number that grows beyond the finite ones is refused; one that is too small is zero.
-/

namespace DotChain.Json

/-- The parts of a numeral. -/
structure Numeral where
  negative : Bool
  whole : List Char
  /-- The digits after the point, if there is a point. -/
  fraction : Option (List Char)
  /-- The number after the exponent mark, if there is one. -/
  exponent : Option Int

namespace Numeral

/-! ## Value -/

/-- The greatest significand: all of 64 bits. -/
def significandLimit : Nat := 18446744073709551615

/-- Appends digits to a significand as long as it fits; the digits that are left over are returned
beside it. -/
def absorb (significand : Nat) : List Char → Nat × List Char
  | [] => (significand, [])
  | c :: rest =>
    let next := 10 * significand + (c.toNat - 48)
    if next ≤ significandLimit then absorb next rest else (significand, c :: rest)

/-- The greatest power of ten that is finite. -/
def finitePower : Nat := 308

/-- Multiplies by a power of ten. A product that is not finite is refused. -/
def raise? (x : Binary64) (power : Nat) : Option Binary64 :=
  if finitePower < power then if x.isZero then some x else none
  else
    let product := x.scaleUp (.ofNat (Nat.pow 10 power))
    if product.isFinite then some product else none

/-- Divides by a power of ten, in several steps if the power is not finite itself. -/
def lower (x : Binary64) (power : Nat) : Binary64 :=
  if power ≤ finitePower then x.scaleDown (.ofNat (Nat.pow 10 power))
  else if x.isZero then x
  else lower (x.scaleDown (.ofNat (Nat.pow 10 finitePower))) (power - finitePower)
termination_by power
decreasing_by simp only [finitePower] at *; omega

/-- Scales by a power of ten. -/
def scale? (x : Binary64) (power : Int) : Option Binary64 :=
  if 0 ≤ power then raise? x power.toNat else some (lower x (-power).toNat)

/-- The integer that a numeral stands for, if it stands for one. -/
def int? (numeral : Numeral) : Option Int64 :=
  if numeral.fraction.isSome || numeral.exponent.isSome then none
  else
    let magnitude : Int := digitsValue numeral.whole
    let value := if numeral.negative then -magnitude else magnitude
    if numeral.negative ∧ value = 0 then none
    else if Int64.minValue.toInt ≤ value ∧ value ≤ Int64.maxValue.toInt then
      some (Int64.ofInt value)
    else none

/-- The float that a numeral stands for, unless it is too great. -/
def float? (numeral : Numeral) : Option Binary64 :=
  let fraction := numeral.fraction.getD []
  let (significand, dropped) := absorb 0 numeral.whole
  let (significand, ignored) := absorb significand fraction
  let power := numeral.exponent.getD 0 + dropped.length - (fraction.length - ignored.length : Nat)
  (scale? (.ofNat significand) power).map fun x => if numeral.negative then x.neg else x

/-- The number that a numeral stands for, unless it is too great. -/
def number? (numeral : Numeral) : Option Json :=
  match numeral.int? with
  | some value => some (.int value)
  | none => numeral.float?.map .float

/-! ## Reading -/

/-- Reads the digits of a numeral from the front of a text; there has to be one. -/
def digits? (text : List Char) : Option (List Char × List Char) :=
  let digits := text.takeWhile isDigit
  if digits.isEmpty then none else some (digits, text.dropWhile isDigit)

/-- Reads the digits before the point. A zero stands alone. -/
def whole? (text : List Char) : Option (List Char × List Char) :=
  match digits? text with
  | some (digits, rest) =>
    if digits.head? = some '0' ∧ 1 < digits.length then none else some (digits, rest)
  | none => none

/-- Reads a point and the digits after it, if there is a point. -/
def fraction? (text : List Char) : Option (Option (List Char) × List Char) :=
  match text with
  | '.' :: rest => (digits? rest).map fun (digits, rest) => (some digits, rest)
  | text => some (none, text)

/-- Reads an exponent, if there is an exponent mark. -/
def exponent? (text : List Char) : Option (Option Int × List Char) :=
  match text with
  | [] => some (none, [])
  | c :: rest =>
    if c = 'e' ∨ c = 'E' then
      let signed := takeSign rest
      (digits? signed.2).map fun (digits, rest) =>
        let magnitude : Int := digitsValue digits
        (some (if signed.1 then -magnitude else magnitude), rest)
    else some (none, c :: rest)

/-- Removes a leading minus, and tells whether there was one. -/
def takeMinus : List Char → Bool × List Char
  | '-' :: rest => (true, rest)
  | rest => (false, rest)

/-- Reads a numeral from the front of a text. -/
def read? (text : List Char) : Option (Numeral × List Char) := do
  let (negative, unsigned) := takeMinus text
  let (whole, rest) ← whole? unsigned
  let (fraction, rest) ← fraction? rest
  let (exponent, rest) ← exponent? rest
  return (⟨negative, whole, fraction, exponent⟩, rest)

/-! ## What remains is shorter -/

theorem digits?_shorter {text digits rest : List Char} (read : digits? text = some (digits, rest)) :
    rest.length < text.length := by
  simp only [digits?, Option.ite_none_left_eq_some, Option.some.injEq, Prod.mk.injEq] at read
  obtain ⟨some, rfl, rfl⟩ := read
  have := congrArg List.length (List.takeWhile_append_dropWhile (p := isDigit) (l := text))
  have : (text.takeWhile isDigit).length ≠ 0 := by simpa using some
  simp only [List.length_append] at *
  omega

theorem whole?_shorter {text digits rest : List Char} (read : whole? text = some (digits, rest)) :
    rest.length < text.length := by
  unfold whole? at read
  split at read
  · next found =>
    split at read
    · cases read
    · cases read
      exact digits?_shorter found
  · cases read

theorem fraction?_shorter {text rest : List Char} {digits : Option (List Char)}
    (read : fraction? text = some (digits, rest)) : rest.length ≤ text.length := by
  unfold fraction? at read
  split at read
  · obtain ⟨⟨_, _⟩, found, same⟩ := Option.map_eq_some_iff.mp read
    cases same
    have := digits?_shorter found
    simp only [List.length_cons]
    omega
  · cases read
    exact Nat.le_refl _

theorem exponent?_shorter {text rest : List Char} {exponent : Option Int}
    (read : exponent? text = some (exponent, rest)) : rest.length ≤ text.length := by
  unfold exponent? at read
  split at read
  · cases read
    exact Nat.le_refl _
  · next c tail =>
    split at read
    · obtain ⟨⟨_, _⟩, found, same⟩ := Option.map_eq_some_iff.mp read
      cases same
      have := digits?_shorter found
      have := takeSign_length tail
      simp only [List.length_cons] at *
      omega
    · cases read
      exact Nat.le_refl _

/-- A numeral takes at least one character. -/
theorem read?_shorter {text rest : List Char} {numeral : Numeral}
    (read : read? text = some (numeral, rest)) : rest.length < text.length := by
  unfold read? at read
  simp only [Option.bind_eq_bind, Option.bind_eq_some_iff, Option.pure_def, Option.some.injEq,
    Prod.mk.injEq, Prod.exists] at read
  obtain ⟨_, _, whole, _, _, fraction, _, _, exponent, _, rfl⟩ := read
  have := fraction?_shorter fraction
  have := exponent?_shorter exponent
  have := whole?_shorter whole
  have : (takeMinus text).2.length ≤ text.length := by
    unfold takeMinus
    split <;> simp
  omega

end Numeral

end DotChain.Json
