import DotChain.Command
import DotChain.Proofs.Flattening
import DotChain.Proofs.Grammar
import DotChain.Proofs.Lexemes

/-!
# To set is to assign

The command that sets reads its target and its operand apart and takes the two steps of an assignment
itself. Main statement: `set_tells`, it tells what becomes of the assignment expression that both texts form
together in parentheses, unless that nests too deep. Two things carry the proof: texts in parentheses are
cut into tokens as they are alone (`Lexer.lexes_parens`), and the assignment runs beside the two steps one
level deeper (`Coupling.coupled_assign`).
-/

namespace DotChain

/-! ## The text of an assignment -/

/-- The text that assigns the value of one text to the location of another. -/
def assignmentText (target operand : String) : String := "(" ++ target ++ ") = (" ++ operand ++ ")"

/-- What stands in parentheses is cut into tokens as it is alone. -/
theorem Lexer.lexes_parens {text rest : List Char} {kinds more : List TokenKind}
    (lexes : Lexes text kinds) (others : Lexes rest more) :
    Lexes ('(' :: (text ++ ')' :: rest)) (.openParen :: (kinds ++ .closeParen :: more)) :=
  lexes_mark rfl (lexes.append (breaks_cons rest (by decide)) (lexes_mark rfl others))

theorem Lexer.lexes_assignmentText {target operand : String} {kinds more : List TokenKind}
    (lexes : Lexes target.toList kinds) (others : Lexes operand.toList more) :
    Lexes (assignmentText target operand).toList
      (.openParen :: (kinds ++ .closeParen :: .equals :: .openParen :: (more ++ [.closeParen]))) := by
  have text : (assignmentText target operand).toList = '(' :: (target.toList ++
      ')' :: ' ' :: '=' :: ' ' :: '(' :: (operand.toList ++ [')'])) := by
    simp [assignmentText]
  rw [text]
  exact lexes_parens lexes (.gap rfl (lexes_mark rfl (.gap rfl (lexes_parens others .nothing))))

/-- Tokens of the kinds of an expression in parentheses form a chain of the same shape, up to the last
parenthesis. -/
private theorem derives_parens {tokens others : List Token} {e : Expr} {kinds : List TokenKind}
    (derived : Grammar.Derives .expression tokens [e])
    (same : others.map Token.kind = .openParen :: (tokens.map Token.kind ++ .closeParen :: kinds)) :
    ∃ left right e', others = left ++ right ∧ right.map Token.kind = kinds ∧
      Grammar.Derives .chain left [e'] ∧ e'.shape = e.shape := by
  obtain ⟨opening, rest, rfl, sameRest⟩ := Grammar.kinds_cons.mp same
  obtain ⟨inner, rest, rfl, sameInner, sameRest⟩ := List.map_eq_append_iff.mp sameRest
  obtain ⟨closing, right, rfl, sameRight⟩ := Grammar.kinds_cons.mp sameRest
  obtain ⟨es, inside, shapes⟩ := Grammar.derives_carries derived inner sameInner
  obtain ⟨e', rfl, shape⟩ := List.map_eq_singleton_iff.mp shapes
  refine ⟨_, right, e', ?_, sameRight, .single (.parens opening closing inside), shape⟩
  simp

/-- The text of an assignment reads as the assignment of the two trees, up to where they stand. -/
theorem Expr.parse_assignmentText {target operand : String} {location value : Expr}
    (parsed : parse target = .ok location) (parsedOperand : parse operand = .ok value)
    (short : Text.bytes (assignmentText target operand).toList ≤ Span.offsetLimit) :
    ∃ location' value' span, parse (assignmentText target operand) = .ok (.assign location' value' span) ∧
      location'.shape = location.shape ∧ value'.shape = value.shape := by
  obtain ⟨tokens, read, derived⟩ := of_parse parsed
  obtain ⟨tokens', read', derived'⟩ := of_parse parsedOperand
  have lexes := Lexer.lexes_assignmentText (Lexer.lexes_of_scan read) (Lexer.lexes_of_scan read')
  obtain ⟨all, readAll, same⟩ := Lexer.scan_of_lexes lexes 0 (by omega)
  obtain ⟨left, rest, location', rfl, sameRest, ofTarget, shape⟩ := derives_parens derived same
  obtain ⟨sign, right, rfl, sameRight⟩ := Grammar.kinds_cons.mp sameRest
  obtain ⟨right, last, value', rfl, nothing, ofValue, shape'⟩ := derives_parens derived' sameRight
  obtain rfl := List.map_eq_nil_iff.mp nothing
  rw [List.append_nil] at readAll
  exact ⟨location', value', _,
    parse_of_derives readAll short (.assignment sign ofTarget (.plain ofValue)), shape, shape'⟩

/-! ## The steps of an assignment -/

/-- Stores the value of one expression in the location of another, and has that value. -/
def Expr.storing {W : Type} [Host W] (location value : Expr) : Eval W TypedValue := do
  let result ← value.evaluate
  location.store result
  return result

/-- An assignment runs alike with the two steps that it consists of, one level of nesting deeper. -/
theorem Coupling.coupled_assign {W : Type} [Host W] {config : Config} {level : Nat}
    {location value location' value' : Expr} (shape : location'.shape = location.shape)
    (shape' : value'.shape = value.shape) (span : Span) :
    (flatter W config 0).Coupled level (Expr.assign location' value' span).evaluate
      (location.storing value) := by
  have alike {e e' : Expr} (same : e'.shape = e.shape) :
      (flatter W config 1).CoupledBy level e'.node e.node :=
    Expr.coupled_matches flatter_stepwise flatter_writesAlike
      (Expr.matches_of_shape (fun _ _ => trivial) same) fun _ _ _ => flatter_admits
  apply coupled_inNode_left
  apply coupled_bind (alike shape').evaluate
  intro result
  apply coupled_bind ((alike shape).assign result)
  intro _
  exact coupled_pure result

/-! ## What the command tells -/

namespace Command

/-- What a command tells of an evaluation: after a success, the document of the root as it is left; after a
failure, the same failure, but for the place. -/
inductive Tells : Except Report Output → Except Failure TypedValue × State Unit → Prop where
  | shown (value : TypedValue) (final : State Unit) (counters : Option Counters) :
    Tells (.ok ⟨(final.heap.document final.root.value).write, counters⟩) (.ok value, final)
  | refused {told failure : Failure} (source : String) (final : State Unit)
    (kind : told.unplaced = failure.unplaced) (message : told.message = failure.message) :
    Tells (.error ⟨source, .failed told⟩) (.error failure, final)

/-- With texts that can be read, the command takes the two steps of an assignment. -/
private theorem set_tells_storing {target operand root : String} {location value : Expr} {document : Json}
    (parsed : Expr.parse target = .ok location) (parsedOperand : Expr.parse operand = .ok value)
    (given : Json.read? root = some document) :
    Tells (set target operand root) ((location.storing value).outcome (start document)) := by
  rw [set_of_read parsed parsedOperand given, Expr.storing, Eval.outcome_bind]
  rcases evaluated : value.evaluate.outcome (start document) with ⟨failure | result, middle⟩
  · simp only [update, Command.run, evaluated, bind, Except.bind]
    exact .refused operand middle rfl rfl
  · dsimp only
    rw [Eval.outcome_bind]
    rcases stored : (location.store result).outcome middle with ⟨failure | _, final⟩
    · simp only [update, Command.run, evaluated, stored, bind, Except.bind]
      exact .refused target final rfl rfl
    · simp only [update, Command.run, evaluated, stored, bind, Except.bind]
      exact .shown result final _

private theorem message_of_unplaced {first second : Failure} (same : first.unplaced = second.unplaced) :
    first.message = second.message := by
  have kept (failure : Failure) : failure.unplaced.message = failure.message := by
    cases failure <;> rfl
  rw [← kept first, same, kept]

/-- What is told of one run is true of a run that ends alike. -/
private theorem Tells.of_ends {config : Config} {told : Except Report Output}
    {first second : Except Failure TypedValue × State Unit} (tells : Tells told second)
    (ends : (Coupling.flatter Unit config 0).Ends 0 first second)
    (room : ∀ limit failure, first.1 = .error failure → ¬ failure.Exhausts limit) : Tells told first := by
  cases ends with
  | returned value reached =>
    obtain ⟨_, _, _, alike⟩ := reached
    cases tells with
    | shown _ final counters =>
      rw [State.heap, ← alike.store, ← alike.root]
      exact .shown value _ counters
  | failed same reached =>
    cases tells with
    | refused source final kind message =>
      have kind := kind.trans same.symm
      exact .refused source _ kind (message_of_unplaced kind)
  | excused excuse s other =>
    obtain ⟨limit, _, exhausts⟩ := excuse
    exact absurd exhausts (room limit _ rfl)

/-- To set is to assign: the two texts form an assignment of their trees, and the command tells what becomes
of that expression where it is evaluated on the same document, unless its nodes nest too deep. -/
theorem set_tells {target operand root : String} {location value : Expr} {document : Json}
    (parsed : Expr.parse target = .ok location) (parsedOperand : Expr.parse operand = .ok value)
    (short : Text.bytes (assignmentText target operand).toList ≤ Span.offsetLimit)
    (given : Json.read? root = some document) :
    ∃ location' value' span,
      Expr.parse (assignmentText target operand) = .ok (.assign location' value' span) ∧
      location'.shape = location.shape ∧ value'.shape = value.shape ∧
      ((∀ limit, ¬ Eval.Exhausts limit (Expr.assign location' value' span).evaluate (start document)) →
        Tells (set target operand root)
          ((Expr.assign location' value' span).evaluate.outcome (start document))) := by
  obtain ⟨location', value', span, parsedBoth, shape, shape'⟩ :=
    Expr.parse_assignmentText parsed parsedOperand short
  refine ⟨location', value', span, parsedBoth, shape, shape', fun room => ?_⟩
  have coupled : (Coupling.flatter Unit .standard 0).Coupled 0 _ _ :=
    Coupling.coupled_assign shape shape' span
  have ends := coupled (start document) (start document) ⟨rfl, rfl, rfl, State.Alike.refl _⟩
  exact (set_tells_storing parsed parsedOperand given).of_ends ends
    fun limit failure failed exhausts => room limit ⟨failure, failed, exhausts⟩

/-- A member that is overwritten. -/
theorem set_tells_member :
    Expr.parse "a" = .ok (.property "a" false ⟨0, 1⟩) ∧ Expr.parse "1" = .ok (.literal (.int 1) ⟨0, 1⟩) ∧
    Text.bytes (assignmentText "a" "1").toList ≤ Span.offsetLimit ∧
    Json.read? "\x7b\"a\": null\x7d" = some (.object [("a", .null)]) ∧
    ∃ counters, set "a" "1" "\x7b\"a\": null\x7d" = .ok ⟨"\x7b\"a\":1\x7d", counters⟩ := by
  have token : Lexer.scan 0 "a".toList = .ok [⟨.name "a", ⟨0, 1⟩⟩] := by
    simp [Lexer.scan, Lexer.isGap, Lexer.reach, Lexer.isNameStart, Lexer.ofLexeme?, Lexer.ofName,
      Lexer.run, Span.ofRange, Span.offsetLimit, Text.bytes, Except.map, Char.utf8Size]
  have integer : Lexer.ofInteger? ['1'] = some (.literal (.int 1)) := by decide +kernel
  have token' : Lexer.scan 0 "1".toList = .ok [⟨.literal (.int 1), ⟨0, 1⟩⟩] := by
    simp [Lexer.scan, Lexer.isGap, Lexer.reach, Lexer.isNameStart, isDigit, Lexer.ofLexeme?,
      Lexer.ofNumber?, Lexer.numberReach, Lexer.fractionReach, Lexer.run, integer,
      Span.ofRange, Span.offsetLimit, Text.bytes, Except.map, Char.utf8Size]
  have parsed := Expr.parse_of_derives token (by decide)
    (.plain (.single (.ofSegment (.property "a" ⟨0, 1⟩ false))))
  have parsedOperand := Expr.parse_of_derives token' (by decide)
    (.plain (.single (.literal (.int 1) ⟨0, 1⟩)))
  have given : Json.read? "\x7b\"a\": null\x7d" = some (.object [("a", .null)]) := by cbv
  have short : Text.bytes (assignmentText "a" "1").toList ≤ Span.offsetLimit := by decide
  obtain ⟨location, value, span, _, shape, shape', tells⟩ := set_tells parsed parsedOperand short given
  obtain ⟨place, rfl⟩ : ∃ place, location = .property "a" false place := by
    cases location <;> cases shape
    exact ⟨_, rfl⟩
  obtain ⟨place', rfl⟩ : ∃ place, value = .literal (.int 1) place := by
    cases value <;> cases shape'
    exact ⟨_, rfl⟩
  -- Where the parts stand does not matter to an evaluation that succeeds.
  have evaluated : ∃ result final,
      (Expr.assign (.property "a" false place) (.literal (.int 1) place') span).evaluate.outcome
        (start (.object [("a", .null)])) = (.ok result, final) ∧
      (final.heap.document final.root.value).write = "\x7b\"a\":1\x7d" := by
    refine ⟨_, _, rfl, ?_⟩
    refine (congrArg Json.write (Heap.documentIn_object _ [] ⟨0⟩)).trans ?_
    cbv
  obtain ⟨result, final, done, text⟩ := evaluated
  have fits (limit : Nat) : ¬Eval.Exhausts limit
      (Expr.assign (.property "a" false place) (.literal (.int 1) place') span).evaluate
      (start (.object [("a", .null)])) := by
    rintro ⟨failure, failed, _⟩
    rw [done] at failed
    cases failed
  have told := tells fits
  rw [done] at told
  generalize set "a" "1" "\x7b\"a\": null\x7d" = output at told ⊢
  cases told with
  | shown _ _ counters => exact ⟨parsed, parsedOperand, short, given, counters, by rw [text]⟩

end Command

end DotChain
