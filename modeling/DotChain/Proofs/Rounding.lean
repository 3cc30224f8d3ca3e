import DotChain.Binary64.Decimal

/-!
# Exact rounding

When rounding changes nothing. Main statements: `ofRatio_units`, a finite number is the one nearest to
its own magnitude, and `readsAs_shortest`, the digits chosen for a finite number with a fractional
part read back as it. Cutting the exponent, shifting digits between numeral and exponent and falling
back to every digit leave the quotient that is rounded the same (`ofRatio_scale`).
-/

namespace DotChain.Binary64

private theorem unitsInOne_pos : 0 < unitsInOne := by
  unfold unitsInOne
  generalize 1074 = count
  exact Nat.two_pow_pos count

private theorem unitsInOne_dvd {scale : Nat} (wide : 1074 ≤ scale) : unitsInOne ∣ Nat.pow 2 scale := by
  unfold unitsInOne
  generalize 1074 = count at *
  exact Nat.pow_dvd_pow 2 wide

private theorem dvd_unitsInOne {scale : Nat} (narrow : scale ≤ 1074) : Nat.pow 2 scale ∣ unitsInOne := by
  unfold unitsInOne
  generalize 1074 = count at *
  exact Nat.pow_dvd_pow 2 narrow

/-! ## Quotients -/

/-- Rounding depends on the quotient alone. -/
theorem nearestEven_scale (num den : Nat) {factor : Nat} (positive : 0 < factor) :
    nearestEven (num * factor) (den * factor) = nearestEven num den := by
  have twice : 2 * (num % den * factor) = 2 * (num % den) * factor := (Nat.mul_assoc ..).symm
  simp only [nearestEven, Nat.mul_div_mul_right num den positive, Nat.mul_mod_mul_right, twice,
    Nat.mul_lt_mul_right positive]

private theorem roundUnits_scale (num den : Nat) {factor : Nat} (positive : 0 < factor) :
    roundUnits (num * factor) (den * factor) = roundUnits num den := by
  simp only [roundUnits]
  rw [Nat.mul_div_mul_right _ _ positive, Nat.mul_right_comm den, nearestEven_scale _ _ positive]

/-- The nearest number depends on the quotient alone. -/
theorem ofRatio_scale (negative : Bool) (num den : Nat) {factor : Nat} (positive : 0 < factor) :
    ofRatio negative (num * factor) (den * factor) = ofRatio negative num den := by
  rw [ofRatio, ofRatio, Nat.mul_right_comm, roundUnits_scale _ _ positive]

private theorem nearestEven_mul (whole : Nat) {den : Nat} (positive : 0 < den) :
    nearestEven (whole * den) den = whole := by
  simp only [nearestEven, Nat.mul_mod_left, Nat.mul_zero, if_pos positive,
    Nat.mul_div_cancel _ positive]

/-! ## Magnitudes -/

/-- A magnitude has at most 53 significant bits. -/
def Short (magnitude : Nat) : Prop := Nat.pow 2 (magnitude.log2 - 52) ∣ magnitude

private theorem roundUnits_one {magnitude : Nat} (short : Short magnitude) :
    roundUnits magnitude 1 = magnitude := by
  have positive : 0 < Nat.pow 2 (magnitude.log2 - 52) := Nat.two_pow_pos _
  simp only [roundUnits, Nat.div_one, Nat.one_mul]
  obtain ⟨whole, same⟩ := short
  generalize Nat.pow 2 (magnitude.log2 - 52) = step at *
  rw [same, Nat.mul_comm step, nearestEven_mul whole positive]

/-- The exponent field of a finite number other than zero fixes the highest bit of its magnitude. -/
private theorem units_normal {x : Binary64} (normal : x.exponent.val ≠ 0) :
    x.units = (hidden + x.fraction.val) * Nat.pow 2 (x.exponent.val - 1) ∧
    x.units.log2 - 52 = x.exponent.val - 1 := by
  have value : x.units = (hidden + x.fraction.val) * Nat.pow 2 (x.exponent.val - 1) := by
    rw [units, if_neg normal]
  refine ⟨value, ?_⟩
  have bound := x.fraction.isLt
  have positive : 0 < Nat.pow 2 (x.exponent.val - 1) := Nat.two_pow_pos _
  have least : Nat.pow 2 (52 + (x.exponent.val - 1)) = hidden * Nat.pow 2 (x.exponent.val - 1) :=
    Nat.pow_add 2 52 _
  have greatest : Nat.pow 2 (52 + (x.exponent.val - 1) + 1) =
      hidden * 2 * Nat.pow 2 (x.exponent.val - 1) := by
    rw [Nat.mul_right_comm, ← least]
    rfl
  have nonzero : x.units ≠ 0 := by
    rw [value]
    exact Nat.mul_ne_zero (by simp [hidden]) (by omega)
  have log : x.units.log2 = 52 + (x.exponent.val - 1) := by
    refine (Nat.log2_eq_iff nonzero).mpr ⟨?_, ?_⟩
    · refine Nat.le_trans (Nat.le_of_eq least) ?_
      rw [value]
      exact Nat.mul_le_mul_right _ (Nat.le_add_right ..)
    · refine Nat.lt_of_lt_of_eq ?_ greatest.symm
      rw [value]
      exact Nat.mul_lt_mul_of_pos_right (by simp only [hidden]; omega) positive
  omega

private theorem log2_subnormal {x : Binary64} (small : x.exponent.val = 0) :
    x.units = x.fraction.val ∧ x.units.log2 - 52 = 0 := by
  have value : x.units = x.fraction.val := by rw [units, if_pos small]
  refine ⟨value, ?_⟩
  have bound := x.fraction.isLt
  by_cases zero : x.units = 0
  · rw [zero, Nat.log2_zero]
  · have : x.units.log2 < 52 := (Nat.log2_lt zero).mpr (by omega)
    omega

/-- The magnitude of every finite number has at most 53 significant bits. -/
theorem short_units (x : Binary64) : Short x.units := by
  unfold Short
  by_cases small : x.exponent.val = 0
  · rw [(log2_subnormal small).2]
    exact Nat.one_dvd _
  · obtain ⟨value, scale⟩ := units_normal small
    rw [scale, value]
    exact Nat.dvd_mul_left ..

/-- A finite number is stored as itself. -/
theorem ofUnits_units {x : Binary64} (finite : x.isFinite = true) : ofUnits x.negative x.units = x := by
  obtain ⟨negative, exponent, fraction⟩ := x
  have bound := fraction.isLt
  by_cases small : exponent.val = 0
  · obtain ⟨value, _⟩ := log2_subnormal (x := ⟨negative, exponent, fraction⟩) small
    simp only [ofUnits, value]
    rw [if_pos (show fraction.val < hidden from bound)]
    obtain rfl : exponent = 0 := Fin.ext small
    congr 1
    exact Fin.ext (Nat.mod_eq_of_lt bound)
  · obtain ⟨value, scale⟩ := units_normal (x := ⟨negative, exponent, fraction⟩) small
    have positive : 0 < Nat.pow 2 (exponent.val - 1) := Nat.two_pow_pos _
    have range : exponent.val - 1 + 1 < 2047 := by
      have := exponent.isLt
      simp only [isFinite, bne_iff_ne] at finite
      omega
    have large : ¬ (Binary64.mk negative exponent fraction).units < hidden := by
      rw [value, Nat.not_lt]
      exact Nat.le_trans (Nat.le_add_right ..) (Nat.le_mul_of_pos_right _ positive)
    simp only [ofUnits, if_neg large, scale, if_pos range]
    rw [value, Nat.mul_div_cancel _ positive]
    congr 1
    · exact Fin.ext (by simp only [Fin.ofNat]; omega)
    · exact Fin.ext (by simp only [Fin.ofNat, hidden]; omega)

/-- A finite number is the one nearest to its magnitude. -/
theorem ofRatio_units {x : Binary64} (finite : x.isFinite = true) :
    ofRatio x.negative x.units unitsInOne = x := by
  have quotient : roundUnits (x.units * unitsInOne) unitsInOne = roundUnits x.units 1 := by
    rw [← roundUnits_scale x.units 1 unitsInOne_pos, Nat.one_mul]
  rw [ofRatio, quotient, roundUnits_one (short_units x), ofUnits_units finite]

/-! ## Whole numbers -/

private theorem unitsInOne_dvd_roundUnits (n : Nat) : unitsInOne ∣ roundUnits (n * unitsInOne) 1 := by
  have whole : unitsInOne ∣ n * unitsInOne := Nat.dvd_mul_left ..
  by_cases wide : 1074 ≤ (n * unitsInOne).log2 - 52
  · simp only [roundUnits, Nat.div_one]
    exact Nat.dvd_trans (unitsInOne_dvd wide) (Nat.dvd_mul_left ..)
  · have step : Nat.pow 2 ((n * unitsInOne).log2 - 52) ∣ unitsInOne := dvd_unitsInOne (by omega)
    rw [roundUnits_one (Nat.dvd_trans step whole)]
    exact whole

/-- The number nearest to a whole number is whole, if it is finite. -/
theorem isWhole_ofRatio {negative : Bool} {n : Nat} (finite : (ofRatio negative n 1).isFinite = true) :
    (ofRatio negative n 1).isWhole = true := by
  have whole := unitsInOne_dvd_roundUnits n
  unfold ofRatio at finite ⊢
  generalize roundUnits (n * unitsInOne) 1 = magnitude at *
  have fits : magnitude.log2 - 52 + 1 < 2047 := by
    by_cases fits : magnitude.log2 - 52 + 1 < 2047
    · exact fits
    · have large : ¬ magnitude < hidden := by
        intro small
        have : magnitude.log2 < 52 :=
          (Nat.log2_lt (by rintro rfl; simp at fits)).mpr small
        omega
      rw [ofUnits, if_neg large, if_neg fits] at finite
      cases finite
  rw [isWhole, beq_iff_eq, units_ofUnits_cut negative fits]
  apply Nat.mod_eq_zero_of_dvd
  by_cases wide : 1074 ≤ magnitude.log2 - 52
  · exact Nat.dvd_trans (unitsInOne_dvd wide) (Nat.dvd_mul_left ..)
  · have step : Nat.pow 2 (magnitude.log2 - 52) ∣ unitsInOne := dvd_unitsInOne (by omega)
    rw [Nat.div_mul_cancel (Nat.dvd_trans step whole)]
    exact whole

/-! ## Decimals -/

/-- A decimal without a fractional part is read as a whole number, if as a finite one. -/
theorem isWhole_ofDecimal {negative : Bool} {digits : Nat} {exponent : Int} (whole : 0 ≤ exponent)
    (finite : (ofDecimal negative digits exponent).isFinite = true) :
    (ofDecimal negative digits exponent).isWhole = true := by
  have cut : 0 ≤ max (-((Nat.toDigits 10 digits).length + 330 : Int)) (min exponent 310) := by omega
  simp only [ofDecimal, if_pos cut] at finite ⊢
  exact isWhole_ofRatio finite

/-- A decimal with a fractional part is read as a quotient. -/
theorem ofDecimal_of_neg (negative : Bool) (digits : Nat) {exponent : Int} (below : exponent < 0) :
    ofDecimal negative digits exponent = ofRatio negative digits
      (Nat.pow 10 (min ((Nat.toDigits 10 digits).length + 330) (-exponent).toNat)) := by
  have cut : ¬ 0 ≤ max (-((Nat.toDigits 10 digits).length + 330 : Int)) (min exponent 310) := by omega
  simp only [ofDecimal, if_neg cut]
  congr 2
  omega

private theorem ofDecimal_uncut (negative : Bool) (digits places : Nat) (positive : 0 < places)
    (many : places ≤ (Nat.toDigits 10 digits).length + 330) :
    ofDecimal negative digits (-(places : Int)) = ofRatio negative digits (Nat.pow 10 places) := by
  have uncut : min ((Nat.toDigits 10 digits).length + 330) (-(-(places : Int))).toNat = places := by
    omega
  rw [ofDecimal_of_neg _ _ (by omega), uncut]

private theorem length_toDigits_of_le {n count : Nat} (positive : 0 < count)
    (large : Nat.pow 10 count ≤ n) : count < (Nat.toDigits 10 n).length := by
  refine Nat.lt_of_not_le fun few => ?_
  exact Nat.not_lt.mpr large ((Nat.length_toDigits_le_iff (by decide) positive).mp few)

private theorem length_toDigits_mul {n : Nat} (positive : 0 < n) :
    (Nat.toDigits 10 (10 * n)).length = (Nat.toDigits 10 n).length + 1 := by
  rw [← Nat.add_zero (10 * n), ← Nat.toDigits_append_toDigits (by decide) positive (by decide)]
  simp

/-- A trailing zero of the digits may be moved into the exponent. -/
theorem ofDecimal_shift (negative : Bool) {digits : Nat} {exponent : Int} (positive : 0 < digits)
    (below : exponent < 0) :
    ofDecimal negative (10 * digits) exponent = ofDecimal negative digits (exponent + 1) := by
  rw [ofDecimal_of_neg _ _ below, length_toDigits_mul positive, Nat.mul_comm]
  by_cases last : exponent = -1
  · subst last
    have unit : min ((Nat.toDigits 10 digits).length + 1 + 330) (- -1 : Int).toNat = 1 := by omega
    have cut : max (-((Nat.toDigits 10 digits).length + 330 : Int)) (min (-1 + 1) 310) = 0 := by omega
    have ten : Nat.pow 10 1 = 1 * 10 := rfl
    rw [unit, ten, ofRatio_scale _ _ _ (by decide)]
    simp only [ofDecimal, cut, Int.le_refl, if_true]
    exact congrArg (ofRatio negative · 1) (Nat.mul_one digits).symm
  · rw [ofDecimal_of_neg negative digits (by omega)]
    have more : min ((Nat.toDigits 10 digits).length + 1 + 330) (-exponent).toNat =
        min ((Nat.toDigits 10 digits).length + 330) (-(exponent + 1)).toNat + 1 := by omega
    rw [more]
    exact ofRatio_scale negative digits _ (by decide)

private theorem tenPow_le : Nat.pow 10 743 ≤ Nat.pow 5 1074 := by decide +kernel

/-- Every digit of a finite whole number and one decimal place are read as it. -/
theorem ofDecimal_whole {x : Binary64} (finite : x.isFinite = true) (whole : x.isWhole = true) :
    ofDecimal x.negative (x.units / unitsInOne * 10) (-1) = x := by
  have value : x.units / unitsInOne * unitsInOne = x.units :=
    Nat.div_mul_cancel (Nat.dvd_of_mod_eq_zero (eq_of_beq whole))
  calc ofDecimal x.negative (x.units / unitsInOne * 10) (-1)
      = ofRatio x.negative (x.units / unitsInOne * 10) (1 * 10) :=
        ofDecimal_uncut x.negative _ 1 (by decide) (by omega)
    _ = ofRatio x.negative (x.units / unitsInOne) 1 := ofRatio_scale _ _ _ (by decide)
    _ = ofRatio x.negative (x.units / unitsInOne * unitsInOne) (1 * unitsInOne) :=
        (ofRatio_scale _ _ _ unitsInOne_pos).symm
    _ = x := by rw [value, Nat.one_mul, ofRatio_units finite]

section
variable {x : Binary64} (finite : x.isFinite = true) (fractional : x.isWhole = false)
include finite fractional

/-- A number with a fractional part is read off no decimal without one. -/
theorem exponent_neg {d : Decimal} (reads : x.readsAs d = true) : d.exponent < 0 := by
  have same : ofDecimal x.negative d.digits d.exponent = x := eq_of_beq reads
  by_cases below : d.exponent < 0
  · exact below
  · rw [← same] at finite fractional
    rw [isWhole_ofDecimal (Int.not_lt.mp below) finite] at fractional
    cases fractional

private theorem readsAs_strip (d : Decimal) (reads : x.readsAs d = true) : x.readsAs d.strip = true := by
  induction d using Decimal.strip.induct with
  | case1 d zeros ih =>
    rw [Decimal.strip, dif_pos zeros]
    apply ih
    have tenfold : 10 * (d.digits / 10) = d.digits := Nat.mul_div_cancel' (Nat.dvd_of_mod_eq_zero zeros.2)
    have positive : 0 < d.digits / 10 := by omega
    have shift := ofDecimal_shift x.negative positive (exponent_neg finite fractional reads)
    rw [tenfold] at shift
    rw [readsAs, ← shift]
    exact reads
  | case2 d none =>
    rw [Decimal.strip, dif_neg none]
    exact reads

private theorem readsAs_exactDecimal : x.readsAs x.exactDecimal = true := by
  have nonzero : 0 < x.units := by
    refine Nat.pos_of_ne_zero fun zero => ?_
    rw [isWhole, zero, Nat.zero_mod] at fractional
    cases fractional
  -- The exponent is not cut, because a unit has 751 digits.
  have many : 1074 ≤ (Nat.toDigits 10 (x.units * Nat.pow 5 1074)).length + 330 := by
    have large : Nat.pow 10 743 ≤ x.units * Nat.pow 5 1074 :=
      Nat.le_trans tenPow_le (Nat.le_mul_of_pos_left _ nonzero)
    have long := length_toDigits_of_le (by decide) large
    omega
  have places : (-1074 : Int) = -((1074 : Nat) : Int) := rfl
  have positive : 0 < 1074 := by decide
  have own := ofRatio_units finite
  unfold unitsInOne at own
  rw [readsAs, beq_iff_eq, exactDecimal, places]
  generalize 1074 = count at *
  have split : Nat.pow 10 count = Nat.pow 2 count * Nat.pow 5 count := Nat.mul_pow 2 5 count
  have fives : 0 < Nat.pow 5 count := Nat.pow_pos (by decide)
  rw [ofDecimal_uncut _ _ _ positive many, split, ofRatio_scale _ _ _ fives, own]

/-- The digits that are chosen for a finite number with a fractional part read back as it. -/
theorem readsAs_shortest (tie : Tie) : x.readsAs (x.shortest tie) = true := by
  apply readsAs_strip finite fractional
  cases found : (List.range 17).findSome? fun n => x.candidate? tie (n + 1) with
  | none => exact readsAs_exactDecimal finite fractional
  | some d =>
    obtain ⟨count, _, chosen⟩ := List.exists_of_findSome?_eq_some found
    exact readsAs_of_candidate? chosen

end

end DotChain.Binary64
