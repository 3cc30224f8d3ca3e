import DotChain.Token.Lexer

/-!
# How far lexemes reach

Where a lexeme ends depends on what follows it. Main statements: `local_reach`, a text may be cut behind a
lexeme, or anywhere later, without changing it; `reach_append`, a lexeme that stands for a token does not go
on into a character that ends tokens.
-/

namespace DotChain.Lexer

/-- The characters that end every token but a string: those that separate tokens, and all marks but the
point, which may stand in a number. -/
def breakMarks : List Char := [' ', '\t', '\r', '\n', ',', '(', ')', '[', ']', '=', '#']

/-- A text is empty or begins with a character that ends tokens. -/
def Breaks (text : List Char) : Prop := ∀ c ∈ text.head?, c ∈ breakMarks

theorem breaks_cons {c : Char} (rest : List Char) (ends : c ∈ breakMarks) : Breaks (c :: rest) := by
  intro d member
  obtain rfl := Option.some.inj member
  exact ends

/-! ## Reaches -/

/-- How far something reaches in a text is decided by the part that it reaches over. -/
structure Local (reach : List Char → Nat) : Prop where
  le_length (text : List Char) : reach text ≤ text.length
  cut {front back : List Char} : reach (front ++ back) ≤ front.length → reach front = reach (front ++ back)

/-- Nor does it reach over a character that ends tokens. -/
structure Bounded (reach : List Char → Nat) : Prop extends Local reach where
  breaks (front : List Char) {back : List Char} : Breaks back → reach (front ++ back) ≤ front.length

theorem Bounded.append {reach : List Char → Nat} (bounded : Bounded reach) {front back : List Char}
    (breaks : Breaks back) : reach (front ++ back) = reach front :=
  (bounded.cut (bounded.breaks front breaks)).symm

/-- One character that passes a test and what reaches on behind it, if something does. -/
def headed (test : Char → Bool) (reach : List Char → Nat) : List Char → Nat
  | [] => 0
  | c :: rest => if test c = true ∧ reach rest ≠ 0 then 1 + reach rest else 0

/-- What reaches, perhaps behind one character that passes a test. -/
def perhapsHeaded (test : Char → Bool) (reach : List Char → Nat) (text : List Char) : Nat :=
  if text.head?.any test then headed test reach text else reach text

/-- What reaches first, if anything does, and what reaches on behind it. -/
def followed (first second : List Char → Nat) (text : List Char) : Nat :=
  if first text = 0 then 0 else first text + second (text.drop (first text))

section
variable {test : Char → Bool} {first second reach : List Char → Nat}

theorem run_cons (test : Char → Bool) (c : Char) (rest : List Char) :
    run test (c :: rest) = if test c then 1 + run test rest else 0 := by
  unfold run
  rw [List.takeWhile_cons]
  split
  · rw [List.length_cons, Nat.add_comm]
  · rfl

theorem drop_run (test : Char → Bool) (text : List Char) :
    text.drop (run test text) = text.dropWhile test := by
  calc text.drop (run test text)
      = (text.takeWhile test ++ text.dropWhile test).drop (text.takeWhile test).length := by
        rw [List.takeWhile_append_dropWhile, run]
    _ = text.dropWhile test := List.drop_left

theorem headed_cons (c : Char) (rest : List Char) :
    headed test reach (c :: rest) = if test c = true ∧ reach rest ≠ 0 then 1 + reach rest else 0 := rfl

theorem perhapsHeaded_cons (c : Char) (rest : List Char) :
    perhapsHeaded test reach (c :: rest) =
      if test c then headed test reach (c :: rest) else reach (c :: rest) := rfl

theorem bounded_run (ends : ∀ c ∈ breakMarks, test c = false) : Bounded (run test) where
  le_length text := (List.takeWhile_sublist test).length_le
  cut {front back} inside := by
    induction front with
    | nil => exact (Nat.le_zero.mp inside).symm
    | cons c front ih =>
      rw [List.cons_append, run_cons, List.length_cons] at inside
      rw [List.cons_append, run_cons, run_cons]
      by_cases passes : test c = true
      · rw [if_pos passes] at inside
        rw [if_pos passes, if_pos passes, ih (by omega)]
      · rw [if_neg passes, if_neg passes]
  breaks front {back} breaks := by
    induction front with
    | nil =>
      cases back with
      | nil => exact Nat.le_refl 0
      | cons c back =>
        have fails := ends c (breaks c rfl)
        simp [run_cons, fails]
    | cons c front ih =>
      rw [List.cons_append, run_cons, List.length_cons]
      split <;> omega

theorem bounded_headed (bounded : Bounded reach) (ends : ∀ c ∈ breakMarks, test c = false) :
    Bounded (headed test reach) where
  le_length text := by
    cases text with
    | nil => exact Nat.le_refl 0
    | cons c rest =>
      have inside := bounded.le_length rest
      rw [headed_cons, List.length_cons]
      split <;> omega
  cut {front back} inside := by
    cases front with
    | nil => exact (Nat.le_zero.mp inside).symm
    | cons c front =>
      rw [List.cons_append, headed_cons, List.length_cons] at inside
      rw [List.cons_append, headed_cons, headed_cons]
      by_cases passes : test c = true
      · have same : reach front = reach (front ++ back) := by
          apply bounded.cut
          split at inside
          · omega
          · next none =>
            have none : reach (front ++ back) = 0 := by simpa [passes] using none
            omega
        rw [same]
      · rw [if_neg fun both => passes both.1, if_neg fun both => passes both.1]
  breaks front {back} breaks := by
    cases front with
    | nil =>
      cases back with
      | nil => exact Nat.le_refl 0
      | cons c back =>
        have fails := ends c (breaks c rfl)
        simp [headed_cons, fails]
    | cons c front =>
      have inside := bounded.breaks front breaks
      rw [List.cons_append, headed_cons, List.length_cons]
      split <;> omega

theorem bounded_perhapsHeaded (bounded : Bounded reach) (ends : ∀ c ∈ breakMarks, test c = false) :
    Bounded (perhapsHeaded test reach) := by
  have behind := bounded_headed bounded ends
  constructor
  · constructor
    · intro text
      have inside := bounded.le_length text
      have inside' := behind.le_length text
      unfold perhapsHeaded
      split <;> omega
    · intro front back inside
      cases front with
      | nil =>
        have nothing := bounded.le_length []
        have nothing' : perhapsHeaded test reach [] = 0 := Nat.le_zero.mp nothing
        rw [nothing']
        exact (Nat.le_zero.mp inside).symm
      | cons c front =>
        rw [List.cons_append, perhapsHeaded_cons] at inside ⊢
        rw [perhapsHeaded_cons]
        split at inside
        · next passes => rw [if_pos passes, if_pos passes, behind.cut inside, List.cons_append]
        · next fails => rw [if_neg fails, if_neg fails, bounded.cut inside, List.cons_append]
  · intro front back breaks
    unfold perhapsHeaded
    split
    · exact behind.breaks front breaks
    · exact bounded.breaks front breaks

theorem bounded_followed (bounded : Bounded first) (others : Bounded second) :
    Bounded (followed first second) where
  le_length text := by
    have inside := bounded.le_length text
    have behind := others.le_length (text.drop (first text))
    rw [List.length_drop] at behind
    unfold followed
    split <;> omega
  cut {front back} inside := by
    unfold followed at inside ⊢
    have less : first (front ++ back) ≤ front.length := by split at inside <;> omega
    rw [bounded.cut less]
    split
    · rfl
    · next some =>
      rw [if_neg some, List.drop_append_of_le_length less] at inside
      rw [List.drop_append_of_le_length less, others.cut]
      rw [List.length_drop]
      omega
  breaks front {back} breaks := by
    have less := bounded.breaks front breaks
    have behind := others.breaks (front.drop (first (front ++ back))) breaks
    rw [List.length_drop] at behind
    unfold followed
    split
    · exact Nat.zero_le _
    · rw [List.drop_append_of_le_length less]
      omega

end

/-! ## Numbers -/

private theorem exponentReach_eq : exponentReach =
    headed (fun c => c == 'e' || c == 'E') (perhapsHeaded (fun c => c == '+' || c == '-') (run isDigit)) := by
  have signs : isDigit '+' = false ∧ isDigit '-' = false := ⟨rfl, rfl⟩
  funext text
  unfold exponentReach
  split
  · next mark c rest =>
    by_cases digit : isDigit c = true <;> simp [headed_cons, perhapsHeaded_cons, run_cons, digit]
    congr 1
    omega
  · next mark c rest =>
    by_cases digit : isDigit c = true <;> simp [headed_cons, perhapsHeaded_cons, run_cons, digit]
    congr 1
    omega
  · next mark c rest notPlus notMinus =>
    by_cases sign : c = '+' ∨ c = '-'
    · -- a sign without a digit
      have last : rest = [] := by
        cases rest with
        | nil => rfl
        | cons d rest => simp_all
      subst last
      rcases sign with rfl | rfl <;> simp [headed_cons, perhapsHeaded_cons, signs, run]
    · by_cases digit : isDigit c = true <;> simp_all [headed_cons, perhapsHeaded_cons, run_cons]
      congr 1
      omega
  · match text with
    | [] => rfl
    | [mark] => simp [headed_cons, perhapsHeaded, run]
    | mark :: c :: rest => simp_all

private theorem fractionReach_eq :
    fractionReach = headed (· == '.') (followed (run isDigit) exponentReach) := by
  funext text
  unfold fractionReach
  split
  · next c rest =>
    have behind : (c :: rest).drop (1 + run isDigit rest) = rest.dropWhile isDigit := by
      rw [Nat.add_comm, List.drop_succ_cons, drop_run]
    by_cases digit : isDigit c = true
    · simp only [headed_cons, followed, run_cons, digit, if_true, behind]
      simp
      omega
    · simp [headed_cons, followed, run_cons, digit]
  · match text with
    | [] => rfl
    | [point] => simp [headed_cons, followed, run]
    | point :: c :: rest => simp_all [headed_cons]

/-- Digits and perhaps a fraction. -/
private def numeralReach : List Char → Nat := followed (run isDigit) fractionReach

private theorem numeralReach_cons {c : Char} (digit : isDigit c = true) (rest : List Char) :
    numeralReach (c :: rest) = 1 + numberReach rest := by
  rw [numeralReach, followed, run_cons, if_pos digit, if_neg (by omega), Nat.add_comm 1,
    List.drop_succ_cons, drop_run, numberReach]
  omega

private theorem bounded_digits : Bounded (run isDigit) :=
  bounded_run (by simp [breakMarks, isDigit])

private theorem bounded_numeralReach : Bounded numeralReach := by
  have exponent : Bounded exponentReach := by
    rw [exponentReach_eq]
    exact bounded_headed (bounded_perhapsHeaded bounded_digits (by simp [breakMarks])) (by simp [breakMarks])
  have fraction : Bounded fractionReach := by
    rw [fractionReach_eq]
    exact bounded_headed (bounded_followed bounded_digits exponent) (by simp [breakMarks])
  exact bounded_followed bounded_digits fraction

/-- What follows a first digit ends where the number does. -/
private theorem bounded_numberReach : Bounded numberReach := by
  have same (text : List Char) : numeralReach ('0' :: text) = 1 + numberReach text :=
    numeralReach_cons rfl text
  constructor
  · constructor
    · intro text
      have inside := bounded_numeralReach.le_length ('0' :: text)
      rw [same, List.length_cons] at inside
      omega
    · intro front back inside
      have cut := @Local.cut _ bounded_numeralReach.toLocal ('0' :: front) back
      rw [List.cons_append, same, same, List.length_cons] at cut
      have cut := cut (by omega)
      omega
  · intro front back breaks
    have inside := bounded_numeralReach.breaks ('0' :: front) breaks
    rw [List.cons_append, same, List.length_cons] at inside
    omega

/-! ## Strings -/

theorem quoteReach_quote (rest : List Char) : quoteReach ('\'' :: rest) =
    if rest.head? = some '\'' then 2 + quoteReach rest.tail else 1 := by
  match rest with
  | [] => simp [quoteReach]
  | c :: rest =>
    by_cases quote : c = '\''
    · subst quote
      simp [quoteReach]
    · simp [quoteReach, quote]

theorem quoteReach_other {c : Char} (other : c ≠ '\'') (rest : List Char) :
    quoteReach (c :: rest) = 1 + quoteReach rest := by
  match rest with
  | [] => simp [quoteReach, other]
  | d :: rest => simp [quoteReach, other]

private theorem local_quoteReach : Local quoteReach where
  le_length text := by
    fun_induction quoteReach text with
    | case1 => exact Nat.le_refl 0
    | case2 rest ih => simp only [List.length_cons]; omega
    | case3 => simp
    | case4 c rest _ _ ih => simp only [List.length_cons]; omega
  cut {front back} inside := by
    fun_induction quoteReach front with
    | case1 => exact (Nat.le_zero.mp inside).symm
    | case2 rest ih =>
      simp only [List.cons_append, quoteReach, List.length_cons] at inside ⊢
      rw [ih (by omega)]
    | case3 rest single =>
      have alone : (rest ++ back).head? ≠ some '\'' := by
        intro doubled
        cases rest with
        | nil =>
          rw [List.cons_append, quoteReach_quote, if_pos doubled] at inside
          simp at inside
          omega
        | cons d rest =>
          obtain rfl := Option.some.inj doubled
          exact single _ rfl rfl
      rw [List.cons_append, quoteReach_quote, if_neg alone]
    | case4 c rest single quote ih =>
      rw [List.cons_append, quoteReach_other quote, List.length_cons] at inside
      rw [List.cons_append, quoteReach_other quote, ih (by omega)]

private theorem unquoteRest?_other {c : Char} (other : c ≠ '\'') (rest : List Char) :
    Text.unquoteRest? (c :: rest) = (Text.unquoteRest? rest).map (c :: ·) := by
  match rest with
  | [] => simp [Text.unquoteRest?, other]
  | d :: rest => simp [Text.unquoteRest?, other]

/-- A string that is closed ends there, if no quote comes next. -/
private theorem quoteReach_append {front back : List Char}
    (closed : (Text.unquoteRest? (front.take (quoteReach front))).isSome)
    (single : back.head? ≠ some '\'') : quoteReach (front ++ back) = quoteReach front := by
  fun_induction quoteReach front with
  | case1 => simp [Text.unquoteRest?] at closed
  | case2 rest ih =>
    rw [Nat.add_comm] at closed
    simp only [List.take_succ_cons, Text.unquoteRest?, Option.isSome_map] at closed
    simp only [List.cons_append, quoteReach, ih closed]
  | case3 rest alone =>
    rw [List.cons_append, quoteReach_quote, if_neg]
    cases rest with
    | nil => exact single
    | cons d rest =>
      intro doubled
      obtain rfl := Option.some.inj doubled
      exact alone _ rfl rfl
  | case4 c rest _ other ih =>
    rw [Nat.add_comm, List.take_succ_cons] at closed
    rw [unquoteRest?_other other, Option.isSome_map] at closed
    rw [List.cons_append, quoteReach_other other, ih closed]

/-! ## Lexemes -/

private theorem bounded_nothing : Bounded fun _ => 0 where
  le_length _ := Nat.zero_le _
  cut _ := rfl
  breaks _ _ _ := Nat.zero_le _

/-- A lexeme that is no string ends before a character that ends tokens, at the latest. -/
private theorem bounded_reach {c : Char} (other : c ≠ '\'') : Bounded (reach c) := by
  by_cases name : isNameStart c = true
  · have same : reach c = run isNamePart := funext fun rest => by simp [reach, name]
    rw [same]
    exact bounded_run (by simp [breakMarks, isNamePart, isNameStart, isDigit])
  by_cases digit : isDigit c = true
  · have same : reach c = numberReach := funext fun rest => by simp [reach, name, digit]
    rw [same]
    exact bounded_numberReach
  by_cases minus : c = '-'
  · have same : reach c = numeralReach := by
      subst minus
      funext rest
      cases rest with
      | nil => rfl
      | cons d rest =>
        change (if isDigit d then 1 + numberReach rest else 0) = _
        by_cases digit : isDigit d = true
        · rw [if_pos digit, numeralReach_cons digit]
        · simp [digit, numeralReach, followed, run_cons]
    rw [same]
    exact bounded_numeralReach
  · have same : reach c = fun _ => 0 := funext fun rest => by simp [reach, name, digit, minus, other]
    rw [same]
    exact bounded_nothing

private theorem reach_quote : reach '\'' = quoteReach := rfl

theorem local_reach (c : Char) : Local (reach c) := by
  by_cases quote : c = '\''
  · rw [quote, reach_quote]
    exact local_quoteReach
  · exact (bounded_reach quote).toLocal

/-- A lexeme that stands for a token ends where it does if a character that ends tokens comes next. -/
theorem reach_append {c : Char} {front back : List Char} {kind : TokenKind}
    (stands : ofLexeme? c (front.take (reach c front)) = some kind) (breaks : Breaks back) :
    reach c (front ++ back) = reach c front := by
  by_cases quote : c = '\''
  · subst quote
    rw [reach_quote] at stands ⊢
    refine quoteReach_append ?_ fun doubled => absurd (breaks '\'' doubled) (by decide)
    obtain ⟨text, closed, _⟩ := Option.map_eq_some_iff.mp stands
    exact Option.isSome_of_eq_some closed
  · exact (bounded_reach quote).append breaks

end DotChain.Lexer
