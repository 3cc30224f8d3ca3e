import DotChain.Literal
import DotChain.Binary64.Reading
import DotChain.Proofs.Rounding

/-!
# Written numbers

What an expression writes for a number reads back as it. Main statements: `signedValue?_toString` for
whole numbers and `Binary64.ofText?_literal` for finite floating point numbers, which always have a
point with digits on both sides (`Binary64.literal_layout`).
-/

namespace DotChain

/-! ## Runs of characters -/

/-- What passes a test is taken up to the first character that does not. -/
theorem takeWhile_stops {test : Char → Bool} {front : List Char} (all : ∀ c ∈ front, test c = true)
    (rest : List Char) (stop : ∀ c ∈ rest.head?, test c = false) :
    (front ++ rest).takeWhile test = front ∧ (front ++ rest).dropWhile test = rest := by
  rw [List.takeWhile_append_of_pos all, List.dropWhile_append_of_pos all]
  cases rest with
  | nil => simp
  | cons c rest =>
    have fails : test c = false := stop c rfl
    simp [fails]

/-! ## Digits -/

/-- At least one digit and nothing else. -/
structure Digits (text : List Char) : Prop where
  nonempty : text ≠ []
  digits : ∀ c ∈ text, isDigit c = true

/-- A text after the minus of a negative number. -/
def signed (negative : Bool) (text : List Char) : List Char := if negative then '-' :: text else text

theorem digits_toDigits (n : Nat) : Digits (Nat.toDigits 10 n) :=
  ⟨Nat.toDigits_ne_nil, fun _ member => Nat.isDigit_of_mem_toDigits (by decide) (by decide) member⟩

theorem digits_cons {text : List Char} (digits : Digits text) :
    ∃ c rest, text = c :: rest ∧ isDigit c = true ∧ ∀ d ∈ rest, isDigit d = true := by
  obtain ⟨nonempty, digits⟩ := digits
  cases text with
  | nil => exact absurd rfl nonempty
  | cons c rest =>
    exact ⟨c, rest, rfl, digits c List.mem_cons_self, fun d later => digits d (List.mem_cons_of_mem _ later)⟩

@[simp] theorem digitsValue_toDigits (n : Nat) : digitsValue (Nat.toDigits 10 n) = n :=
  Nat.ofDigitChars_ten_toDigits

theorem digitsValue_snoc_zero (digits : List Char) :
    digitsValue (digits ++ ['0']) = digitsValue digits * 10 := by
  rw [digitsValue, List.foldl_append]
  exact Nat.mul_comm ..

theorem digitsValue_zeros (count : Nat) (digits : List Char) :
    digitsValue (List.replicate count '0' ++ digits) = digitsValue digits := by
  have skipped := Nat.ofDigitChars_append (b := 10) (l := List.replicate count '0') (m := digits) 0
  rw [Nat.ofDigitChars_replicate_zero, Nat.mul_zero] at skipped
  exact skipped

private theorem takeSign_signed {negative : Bool} {c : Char} {rest : List Char}
    (digit : isDigit c = true) : takeSign (signed negative (c :: rest)) = (negative, c :: rest) := by
  cases negative with
  | true => rfl
  | false =>
    unfold takeSign signed
    split
    · next same =>
      obtain ⟨rfl, _⟩ := List.cons.inj same
      cases digit
    · next same =>
      obtain ⟨rfl, _⟩ := List.cons.inj same
      cases digit
    · rfl

/-! ## Whole numbers -/

theorem toList_toString_int (value : Int) :
    (toString value).toList = signed (decide (value < 0)) (Nat.toDigits 10 value.natAbs) := by
  rw [Int.toString_eq_repr]
  cases value with
  | ofNat n =>
    simp [Int.repr, signed]
  | negSucc n =>
    have sign : Int.negSucc n < 0 := Int.negSucc_lt_zero n
    simp [Int.repr, signed, sign]

theorem signedValue?_signed {negative : Bool} {text : List Char} (digits : Digits text) :
    signedValue? (signed negative text) =
      some (if negative then -(digitsValue text : Int) else digitsValue text) := by
  have all : text.all isDigit = true := List.all_eq_true.mpr digits.digits
  obtain ⟨c, rest, rfl, digit, _⟩ := digits_cons digits
  simp only [signedValue?, takeSign_signed digit]
  rw [if_pos ⟨digits.nonempty, all⟩]

/-- A whole number reads back. -/
theorem signedValue?_toString (value : Int) : signedValue? (toString value).toList = some value := by
  rw [toList_toString_int, signedValue?_signed (digits_toDigits _), digitsValue_toDigits]
  by_cases negative : value < 0
  · rw [decide_eq_true negative, if_pos rfl, ← Int.eq_neg_natAbs_of_nonpos (Int.le_of_lt negative)]
  · rw [decide_eq_false negative, if_neg Bool.false_ne_true,
      Int.natAbs_of_nonneg (Int.not_lt.mp negative)]

/-! ## Numbers with a point -/

namespace Binary64

private theorem toLower_digit {c : Char} (digit : isDigit c = true) : c.toLower = c := by
  unfold isDigit at digit
  rw [Bool.and_eq_true, decide_eq_true_eq, decide_eq_true_eq] at digit
  refine dif_neg ?_
  rintro ⟨upper, _⟩
  exact absurd (UInt32.le_trans upper digit.2) (by decide)

/-- A text that begins with a digit after its sign is read as a numeral. -/
theorem ofText?_digits {negative : Bool} {c : Char} {rest : List Char}
    (digit : isDigit c = true) :
    ofText? (signed negative (c :: rest)) = ofNumeral? negative (c :: rest) := by
  have lower : (c :: rest).map Char.toLower = c :: rest.map Char.toLower := by
    rw [List.map_cons, toLower_digit digit]
  have other : ∀ (letter : Char) (word : List Char), isDigit letter = false →
      c :: rest.map Char.toLower ≠ letter :: word := by
    intro letter word isLetter same
    obtain ⟨rfl, _⟩ := List.cons.inj same
    rw [digit] at isLetter
    cases isLetter
  simp only [ofText?, takeSign_signed digit, lower, other 'i' _ rfl, other 'n' _ rfl, or_self, if_false]

/-- A numeral with digits on both sides of its point is read as the decimal of all of its digits. -/
theorem ofText?_point {negative : Bool} {whole fraction : List Char} (left : Digits whole)
    (right : Digits fraction) :
    ofText? (signed negative (whole ++ '.' :: fraction)) =
      some (ofDecimal negative (digitsValue (whole ++ fraction)) (-(fraction.length : Int))) := by
  obtain ⟨front, back⟩ := takeWhile_stops left.digits ('.' :: fraction) (by simp [isDigit])
  obtain ⟨all, none⟩ := takeWhile_stops right.digits [] (by simp)
  rw [List.append_nil] at all none
  obtain ⟨c, rest, rfl, digit, _⟩ := digits_cons left
  rw [List.cons_append, ofText?_digits digit, ← List.cons_append]
  simp only [ofNumeral?, front, back, all, none]
  simp

/-- Digits that are laid out without an exponent have digits on both sides of the point, if the last of
them stands after it. -/
theorem layPlain_layout (marksWhole : Bool) {digits : List Char} {exponent : Int} (all : Digits digits)
    (below : exponent < 0) : ∃ whole fraction, Digits whole ∧ Digits fraction ∧
      layPlain marksWhole digits (exponent + digits.length) = whole ++ '.' :: fraction ∧
      digitsValue (whole ++ fraction) = digitsValue digits ∧ -(fraction.length : Int) = exponent := by
  have some : 0 < digits.length := List.length_pos_iff.mpr all.nonempty
  by_cases left : exponent + digits.length ≤ 0
  · refine ⟨['0'], zeros (-(exponent + digits.length)).toNat ++ digits, ⟨by simp, by simp [isDigit]⟩,
      ⟨by simp [all.nonempty], ?_⟩, ?_, ?_, ?_⟩
    · intro c member
      rcases List.mem_append.mp member with zero | digit
      · rw [(List.mem_replicate.mp zero).2]
        rfl
      · exact all.digits c digit
    · rw [layPlain, if_pos left]
      rfl
    · exact digitsValue_zeros (_ + 1) digits
    · simp only [zeros, List.length_append, List.length_replicate]
      omega
  · have inside : (exponent + digits.length).toNat < digits.length := by omega
    refine ⟨digits.take (exponent + digits.length).toNat, digits.drop (exponent + digits.length).toNat,
      ⟨?_, fun c member => all.digits c (List.mem_of_mem_take member)⟩,
      ⟨?_, fun c member => all.digits c (List.mem_of_mem_drop member)⟩, ?_, ?_, ?_⟩
    · rw [← List.length_pos_iff, List.length_take]
      omega
    · rw [← List.length_pos_iff, List.length_drop]
      omega
    · rw [layPlain, if_neg left, if_pos inside]
    · rw [List.take_append_drop]
    · rw [List.length_drop]
      omega

private theorem literal_fractional {x : Binary64} (finite : x.isFinite = true)
    (fractional : x.isWhole = false) : ∃ d : Decimal, x.readsAs d = true ∧ d.exponent < 0 ∧
      x.literal.toList = signed x.negative
        (layPlain false (Nat.toDigits 10 d.digits) (d.exponent + (Nat.toDigits 10 d.digits).length)) := by
  have reads := readsAs_shortest finite fractional .away
  refine ⟨x.shortest .away, reads, exponent_neg finite fractional reads, ?_⟩
  have notNaN : x.isNaN = false := by
    simp_all [isNaN, isFinite]
  have notInfinite : x.isInfinite = false := by
    simp_all [isInfinite, isFinite]
  have notZero : x.isZero = false := by
    rw [Bool.eq_false_iff]
    intro zero
    simp only [isZero, Bool.and_eq_true, beq_iff_eq] at zero
    simp [isWhole, units, zero] at fractional
  simp [literal, finite, fractional, Form.write, notNaN, notInfinite, Form.magnitude, notZero, Form.display,
    signed]

/-- How an expression writes a finite number: digits, a point and digits, which are read as it. -/
theorem literal_layout {x : Binary64} (finite : x.isFinite = true) : ∃ whole fraction,
    Digits whole ∧ Digits fraction ∧
    x.literal.toList = signed x.negative (whole ++ '.' :: fraction) ∧
    ofDecimal x.negative (digitsValue (whole ++ fraction)) (-(fraction.length : Int)) = x := by
  by_cases whole : x.isWhole = true
  · refine ⟨Nat.toDigits 10 (x.units / unitsInOne), ['0'], digits_toDigits _,
      ⟨by simp, by simp [isDigit]⟩, ?_, ?_⟩
    · simp [literal, finite, whole, signed]
    · have value : digitsValue (Nat.toDigits 10 (x.units / unitsInOne) ++ ['0']) =
          x.units / unitsInOne * 10 := by
        rw [digitsValue_snoc_zero, digitsValue_toDigits]
      rw [value]
      exact ofDecimal_whole finite whole
  · have fractional : x.isWhole = false := by simpa using whole
    obtain ⟨d, reads, below, text⟩ := literal_fractional finite fractional
    obtain ⟨front, back, left, right, layout, value, places⟩ :=
      layPlain_layout false (digits_toDigits d.digits) below
    refine ⟨front, back, left, right, ?_, ?_⟩
    · rw [text, layout]
    · rw [value, places, digitsValue_toDigits]
      exact eq_of_beq reads

/-- A finite number reads back. -/
theorem ofText?_literal {x : Binary64} (finite : x.isFinite = true) :
    ofText? x.literal.toList = some x := by
  obtain ⟨whole, fraction, left, right, text, same⟩ := literal_layout finite
  rw [text, ofText?_point left right, same]

end Binary64

end DotChain
