import DotChain.Proofs.Lexemes

/-!
# Literals

What is written for a literal is read as that literal again, with one exception. Main statement:
`literal_reads_back`, a literal that stands in a source text reads back exactly unless it is an infinity. A
numeral beyond the greatest finite number is read as an infinity, and what is written for that is a name or
is not read at all (`tokens_infinity`). An integer out of range is refused where it is read.
-/

namespace DotChain

/-! ## Numbers that are read -/

namespace Binary64

/-- What is rounded is a number. -/
theorem isNaN_ofUnits (negative : Bool) (magnitude : Nat) : (ofUnits negative magnitude).isNaN = false := by
  unfold ofUnits
  dsimp only
  split
  · rfl
  · split
    · next fits =>
      have field : (Fin.ofNat 2048 (magnitude.log2 - 52 + 1)).val ≠ 2047 := by
        rw [Fin.val_ofNat]
        omega
      rw [isNaN, beq_eq_false_iff_ne.mpr field, Bool.false_and]
    · rfl

theorem isNaN_ofDecimal (negative : Bool) (digits : Nat) (exponent : Int) :
    (ofDecimal negative digits exponent).isNaN = false := by
  unfold ofDecimal
  dsimp only
  split <;> exact isNaN_ofUnits ..

theorem isNaN_ofNumeral? {negative : Bool} {text : List Char} {x : Binary64}
    (read : ofNumeral? negative text = some x) : x.isNaN = false := by
  -- Whatever the exponent is, the digits are read in the same way.
  have decimal {whole fraction : List Char} {exponent : Int}
      (there : (if (whole.isEmpty && fraction.isEmpty) = true then none
        else pure (ofDecimal negative (digitsValue (whole ++ fraction)) (exponent - fraction.length))) =
          some x) : x.isNaN = false := by
    split at there
    · cases there
    · obtain rfl := Option.some.inj there
      exact isNaN_ofDecimal ..
  unfold ofNumeral? at read
  dsimp only at read
  split at read
  · exact decimal read
  · split at read
    · obtain ⟨_, _, there⟩ := Option.bind_eq_some_iff.mp read
      exact decimal there
    · cases read

/-- A number that is not finite is an infinity. -/
theorem eq_infinity {x : Binary64} (number : x.isNaN = false) (infinite : x.isFinite = false) :
    x = infinity x.negative := by
  obtain ⟨negative, exponent, fraction⟩ := x
  have greatest : exponent.val = 2047 := by simpa [isFinite] using infinite
  have none : fraction.val = 0 := by simpa [isNaN, greatest] using number
  obtain rfl : exponent = 2047 := Fin.ext greatest
  obtain rfl : fraction = 0 := Fin.ext none
  rfl

end Binary64

namespace Lexer

private theorem isNaN_ofNumber? {negative : Bool} {d : Char} {digits : List Char} {x : Binary64}
    (digit : isDigit d = true)
    (stands : ofNumber? (signed negative (d :: digits)) = some (.literal (.float x))) : x.isNaN = false := by
  unfold ofNumber? at stands
  split at stands
  · obtain ⟨_, value, same⟩ := Option.map_eq_some_iff.mp stands
    obtain rfl := Literal.float.inj (TokenKind.literal.inj same)
    rw [Binary64.ofText?_digits digit] at value
    exact Binary64.isNaN_ofNumeral? value
  · unfold ofInteger? at stands
    split at stands
    · split at stands <;> cases stands
    · cases stands

private theorem ofName_ne_float (text : List Char) (x : Binary64) : ofName text ≠ .literal (.float x) := by
  intro same
  unfold ofName at same
  split at same
  · cases same
  · split at same
    · cases same
    · split at same <;> cases same

/-- What is read as a floating point number is a number. -/
private theorem isNaN_ofLexeme? {c : Char} {rest : List Char} {x : Binary64}
    (stands : ofLexeme? c (rest.take (reach c rest)) = some (.literal (.float x))) : x.isNaN = false := by
  unfold ofLexeme? at stands
  split at stands
  · exact absurd (Option.some.inj stands) (ofName_ne_float _ x)
  · split at stands
    · next numeral =>
      obtain ⟨negative, d, digits, text, digit⟩ := numeral_lexeme numeral
      rw [text] at stands
      exact isNaN_ofNumber? digit stands
    · split at stands
      · obtain ⟨_, _, same⟩ := Option.map_eq_some_iff.mp stands
        cases same
      · unfold ofMark? at stands
        split at stands <;> cases stands

/-- A text that is one lexeme is one token. -/
theorem tokens_of_lexes {text : String} {kind : TokenKind} (lexes : Lexes text.toList [kind])
    (short : Text.bytes text.toList ≤ Span.offsetLimit) : ∃ span, tokens text = .ok [⟨kind, span⟩] := by
  obtain ⟨tokens, read, kinds⟩ := scan_of_lexes lexes 0 (by omega)
  obtain ⟨token, rfl, rfl⟩ := List.map_eq_singleton_iff.mp kinds
  exact ⟨token.span, read⟩

/-! ## Literals that are read -/

/-- What is written for an infinity is a name, or nothing that is read. -/
theorem tokens_infinity (negative : Bool) : tokens (Literal.float (.infinity negative)).render =
    if negative then .error (.invalidToken "-" ⟨0, 1⟩) else .ok [⟨.name "inf", ⟨0, 3⟩⟩] := by
  cases negative with
  | true =>
    have text : (Literal.float (.infinity true)).render = "-inf" := by decide +kernel
    rw [text]
    simp [tokens, scan, isGap, reach, isNameStart, isDigit, ofLexeme?, ofMark?, Span.ofRange,
      Span.offsetLimit, Text.bytes, Char.utf8Size]
  | false =>
    have text : (Literal.float (.infinity false)).render = "inf" := by decide +kernel
    rw [text]
    simp [tokens, scan, isGap, reach, isNameStart, isNamePart, ofLexeme?, ofName, run, Span.ofRange,
      Span.offsetLimit, Text.bytes, Except.map, Char.utf8Size]

/-- A literal that stands in a source text and for which not too much is written is read back from what is
written for it exactly unless it is an infinity. -/
theorem literal_reads_back {source : String} {tokens : List Token} {token : Token} {value : Literal}
    (read : Lexer.tokens source = .ok tokens) (member : token ∈ tokens) (stands : token.kind = .literal value)
    (short : Text.bytes value.render.toList ≤ Span.offsetLimit) :
    (∃ span, Lexer.tokens value.render = .ok [⟨.literal value, span⟩]) ↔
      ∀ negative, value ≠ .float (.infinity negative) := by
  constructor
  · rintro ⟨span, again⟩ negative rfl
    rw [tokens_infinity] at again
    cases negative <;> simp at again
  · intro bounded
    have finite : ∀ x, value = .float x → x.isFinite = true := by
      rintro x rfl
      obtain ⟨c, rest, lexeme⟩ := (lexes_of_scan read).stands (List.mem_map_of_mem member)
      rw [stands] at lexeme
      cases bound : x.isFinite with
      | true => rfl
      | false =>
        have infinite := Binary64.eq_infinity (isNaN_ofLexeme? lexeme) bound
        exact absurd (congrArg Literal.float infinite) (bounded x.negative)
    have stops : Stops [] := trivial
    have lexes := lexes_literal finite stops .nothing
    rw [List.append_nil] at lexes
    exact tokens_of_lexes lexes short

/-- The negative zero is told apart from the other. -/
theorem literal_reads_back_negativeZero :
    tokens "-0.0" = .ok [⟨.literal (.float (.zero true)), ⟨0, 4⟩⟩] ∧
    Text.bytes (Literal.float (.zero true)).render.toList ≤ Span.offsetLimit ∧
    ∃ span, tokens (Literal.float (.zero true)).render = .ok [⟨.literal (.float (.zero true)), span⟩] := by
  have value : Binary64.ofText? ['-', '0', '.', '0'] = some (.zero true) := by decide +kernel
  have read : tokens "-0.0" = .ok [⟨.literal (.float (.zero true)), ⟨0, 4⟩⟩] := by
    simp [tokens, scan, isGap, reach, isNameStart, isDigit, ofLexeme?, ofNumber?, numberReach, fractionReach,
      exponentReach, run, value, Span.ofRange, Span.offsetLimit, Text.bytes, Except.map, Char.utf8Size]
  have short : Text.bytes (Literal.float (.zero true)).render.toList ≤ Span.offsetLimit := by decide +kernel
  have finite : ∀ negative, Literal.float (.zero true) ≠ .float (.infinity negative) := by decide
  exact ⟨read, short, (literal_reads_back read (List.mem_singleton_self _) rfl short).mpr finite⟩

/-- A numeral that is too great is read, and what is written for it is not. -/
theorem overflow_unreadable :
    tokens "-1.0e400" = .ok [⟨.literal (.float (.infinity true)), ⟨0, 8⟩⟩] ∧
    Text.bytes (Literal.float (.infinity true)).render.toList ≤ Span.offsetLimit ∧
    ¬∃ span, tokens (Literal.float (.infinity true)).render =
      .ok [⟨.literal (.float (.infinity true)), span⟩] := by
  have value : Binary64.ofText? ['-', '1', '.', '0', 'e', '4', '0', '0'] = some (.infinity true) := by
    decide +kernel
  refine ⟨?_, by decide +kernel, ?_⟩
  · simp [tokens, scan, isGap, reach, isNameStart, isDigit, ofLexeme?, ofNumber?, numberReach, fractionReach,
      exponentReach, run, value, Span.ofRange, Span.offsetLimit, Text.bytes, Except.map, Char.utf8Size]
  · rintro ⟨span, again⟩
    rw [tokens_infinity] at again
    cases again

end Lexer

end DotChain
