import DotChain.Diagnostic
import DotChain.Proofs.Grammar

/-!
# Places in a source text

Every node of a tree that was read, and every error of reading, stands inside the source text, at
character boundaries. Main statements: `Expr.parse_marks` and `Expr.parse_refuses`. Tokens stand where the
text that they were cut from stands (`Lexer.placed_scan`); spans of trees are merged from those of tokens
(`Grammar.stand_of_derives`); an error is at a token or at the end (`Parser.complete_fails`).
-/

namespace DotChain

open Grammar

/-! ## Boundaries -/

namespace Text

/-- An offset is not inside a character of a text and not past its end. -/
def IsBoundary (text : List Char) (offset : Nat) : Prop :=
  ∃ left right, text = left ++ right ∧ bytes left = offset

theorem isBoundary_append (left right : List Char) : IsBoundary (left ++ right) (bytes left) :=
  ⟨left, right, rfl, rfl⟩

theorem isBoundary_zero (text : List Char) : IsBoundary text 0 := ⟨[], text, rfl, rfl⟩

theorem IsBoundary.le_bytes {text : List Char} {offset : Nat} (boundary : IsBoundary text offset) :
    offset ≤ bytes text := by
  obtain ⟨left, right, rfl, rfl⟩ := boundary
  rw [bytes_append]
  exact Nat.le_add_right _ _

/-- Two prefixes of a text are prefixes of each other in the order of their sizes. -/
theorem append_of_bytes_le {left right left' right' : List Char} (same : left ++ right = left' ++ right')
    (shorter : bytes left ≤ bytes left') : ∃ middle, left' = left ++ middle ∧ right = middle ++ right' := by
  rcases List.append_eq_append_iff.mp same with ⟨middle, rfl, rfl⟩ | ⟨middle, rfl, rfl⟩
  · exact ⟨middle, rfl, rfl⟩
  · cases middle with
    | nil => exact ⟨[], by simp⟩
    | cons c middle =>
      have size := c.utf8Size_pos
      rw [bytes_append, bytes_cons] at shorter
      omega

end Text

/-- A span marks a part of a text: its ends are in order, and the text splits at both. -/
structure Span.Marks (span : Span) (text : List Char) : Prop where
  ordered : span.start ≤ span.stop
  start : Text.IsBoundary text span.start
  stop : Text.IsBoundary text span.stop

namespace Span.Marks

theorem unplaced (text : List Char) : Span.unplaced.Marks text :=
  ⟨Nat.le_refl 0, Text.isBoundary_zero text, Text.isBoundary_zero text⟩

/-- The part of a text between two others. -/
theorem between (left middle right : List Char) :
    Span.Marks ⟨Text.bytes left, Text.bytes (left ++ middle)⟩ (left ++ middle ++ right) := by
  refine ⟨?_, ⟨left, middle ++ right, List.append_assoc .., rfl⟩, Text.isBoundary_append _ _⟩
  rw [Text.bytes_append]
  exact Nat.le_add_right _ _

/-- The end of a text. -/
theorem point (text : List Char) : (Span.point (Text.bytes text)).Marks text := by
  have whole : Text.IsBoundary text (Text.bytes text) := ⟨text, [], (List.append_nil text).symm, rfl⟩
  exact ⟨Nat.le_refl _, whole, whole⟩

theorem merge {text : List Char} {a b : Span} (first : a.Marks text) (second : b.Marks text) :
    (a.merge b).Marks text := by
  obtain ⟨order, start, stop⟩ := first
  obtain ⟨order', start', stop'⟩ := second
  refine ⟨?_, ?_, ?_⟩
  · simp only [Span.merge]
    omega
  · rcases Nat.le_total a.start b.start with below | below
    · simpa only [Span.merge, Nat.min_eq_left below] using start
    · simpa only [Span.merge, Nat.min_eq_right below] using start'
  · rcases Nat.le_total a.stop b.stop with below | below
    · simpa only [Span.merge, Nat.max_eq_right below] using stop'
    · simpa only [Span.merge, Nat.max_eq_left below] using stop

end Span.Marks

/-! ## Where tokens stand -/

section
variable {places : Span → Prop}

/-- The tokens of a list stand at places of a kind. -/
def AllAt (places : Span → Prop) (tokens : List Token) : Prop := ∀ token ∈ tokens, places token.span

@[simp] theorem allAt_cons {token : Token} {tokens : List Token} :
    AllAt places (token :: tokens) ↔ places token.span ∧ AllAt places tokens :=
  List.forall_mem_cons

@[simp] theorem allAt_nil : AllAt places [] := fun _ member => absurd member List.not_mem_nil

@[simp] theorem allAt_append {left right : List Token} :
    AllAt places (left ++ right) ↔ AllAt places left ∧ AllAt places right :=
  List.forall_mem_append

end

namespace Lexer

/-- Whatever was read, or refused, stands inside a text. -/
def Placed (text : List Char) : Except SyntaxError (List Token) → Prop
  | .ok tokens => AllAt (·.Marks text) tokens
  | .error error => error.span.Marks text

private theorem placed_cons {text : List Char} {token : Token} {result : Except SyntaxError (List Token)}
    (first : token.span.Marks text) (others : Placed text result) :
    Placed text (result.map (token :: ·)) := by
  cases result with
  | error cause => exact others
  | ok tokens => exact List.forall_mem_cons.mpr ⟨first, others⟩

/-- Reading goes on behind a front that was read before. -/
theorem placed_scan (front text : List Char) :
    Placed (front ++ text) (scan (Text.bytes front) text) := by
  cases form : text with
  | nil =>
    rw [scan]
    exact fun token member => absurd member List.not_mem_nil
  | cons c rest =>
    by_cases blank : isGap c = true
    · have later := placed_scan (front ++ [c]) rest
      have size : Text.bytes (front ++ [c]) = Text.bytes front + 1 := by
        rw [Text.bytes_append, Text.bytes_cons, size_gap blank, Text.bytes_nil]
      rw [size, List.append_assoc] at later
      rw [scan, if_pos blank]
      exact later
    · -- the lexeme, with what comes before and after it
      have split : front ++ c :: rest =
          front ++ c :: rest.take (reach c rest) ++ rest.drop (reach c rest) := by
        rw [List.append_assoc, List.cons_append, List.take_append_drop]
      have stop : Text.bytes front + Text.bytes (c :: rest.take (reach c rest)) =
          Text.bytes (front ++ c :: rest.take (reach c rest)) := (Text.bytes_append _ _).symm
      have here := Span.Marks.between front (c :: rest.take (reach c rest)) (rest.drop (reach c rest))
      have later := placed_scan (front ++ c :: rest.take (reach c rest)) (rest.drop (reach c rest))
      rw [scan, if_neg blank, split]
      dsimp only
      rw [stop]
      cases place : Span.ofRange (Text.bytes front)
          (Text.bytes (front ++ c :: rest.take (reach c rest))) with
      | error cause => exact Span.Marks.unplaced _
      | ok span =>
        obtain ⟨rfl, _⟩ := (Span.ofRange_eq_ok_iff ..).mp place
        cases stands : ofLexeme? c (rest.take (reach c rest)) with
        | none => exact here
        | some kind => exact placed_cons here later
termination_by text.length
decreasing_by
  all_goals
    have := congrArg List.length form
    simp only [List.length_cons, List.length_drop] at *
    omega

end Lexer

/-! ## Where phrases stand -/

section
variable {places : Span → Prop}

/-- The nodes of trees stand at places of a kind. -/
def Stand (places : Span → Prop) (es : List Expr) : Prop := ∀ e ∈ es, ∀ span ∈ e.spans, places span

@[simp] theorem stand_nil : Stand places [] := fun _ member => absurd member List.not_mem_nil

@[simp] theorem stand_cons {e : Expr} {es : List Expr} :
    Stand places (e :: es) ↔ (∀ span ∈ e.spans, places span) ∧ Stand places es :=
  List.forall_mem_cons

@[simp] theorem stand_append {es others : List Expr} :
    Stand places (es ++ others) ↔ Stand places es ∧ Stand places others :=
  List.forall_mem_append

private theorem stand_below {es : List Expr} (stand : Stand places es) :
    ∀ span ∈ Expr.spansAll es, places span := by
  intro span member
  rw [Expr.spansAll_eq_flatMap] at member
  obtain ⟨e, among, inside⟩ := List.mem_flatMap.mp member
  exact stand e among span inside

private theorem placed_root {e : Expr} (stand : ∀ span ∈ e.spans, places span) : places e.span :=
  stand _ e.span_mem_spans

/-- If the places of a kind can be merged, the nodes of a tree stand at such places when the tokens
do. -/
theorem Grammar.stand_of_derives (merges : ∀ {a b}, places a → places b → places (a.merge b))
    {phrase : Nonterminal} {tokens : List Token} {es : List Expr} (derived : Derives phrase tokens es)
    (inside : AllAt places tokens) : Stand places es := by
  induction derived with
  | plain _ ih | single _ ih | ofReference _ ih | ofSegment _ ih | ofIndexer _ ih
  | oneArgument _ ih => exact ih inside
  | noLink => exact stand_nil
  | literal value span => simpa [Expr.spans] using inside
  | property name span dotted => simpa [Expr.spans] using inside
  | assignment sign _ _ ihTarget ihValue =>
    obtain ⟨ofTarget, _, ofValue⟩ := by simpa using inside
    have target := (stand_cons.mp (ihTarget ofTarget)).1
    have value := (stand_cons.mp (ihValue ofValue)).1
    refine stand_cons.mpr ⟨List.forall_mem_cons.mpr ⟨?_, ?_⟩, stand_nil⟩
    · exact merges (placed_root target) (placed_root value)
    · exact List.forall_mem_append.mpr ⟨target, value⟩
  | compound _ _ ihHead ihTail =>
    obtain ⟨ofHead, ofTail⟩ := allAt_append.mp inside
    have head := (stand_cons.mp (ihHead ofHead)).1
    have tail := ihTail ofTail
    have last := (stand_cons.mp (stand_append.mp tail).2).1
    refine stand_cons.mpr ⟨List.forall_mem_cons.mpr ⟨?_, ?_⟩, stand_nil⟩
    · exact merges (placed_root head) (placed_root last)
    · exact List.forall_mem_append.mpr ⟨head, stand_below tail⟩
  | dotLink point _ _ ihFirst ihOthers =>
    obtain ⟨_, ofFirst, ofOthers⟩ := by simpa using inside
    exact stand_cons.mpr ⟨(stand_cons.mp (ihFirst ofFirst)).1, ihOthers ofOthers⟩
  | indexLink _ _ ihFirst ihOthers =>
    obtain ⟨ofFirst, ofOthers⟩ := allAt_append.mp inside
    exact stand_cons.mpr ⟨(stand_cons.mp (ihFirst ofFirst)).1, ihOthers ofOthers⟩
  | parens opening closing _ ih =>
    obtain ⟨_, ofInner, _⟩ := by simpa using inside
    exact ih ofInner
  | emptyCall name span opening closing dotted =>
    obtain ⟨ofName, _, ofClosing⟩ := by simpa using inside
    simpa [Expr.spans] using merges ofName ofClosing
  | call name span opening closing dotted _ ih =>
    obtain ⟨ofName, _, ofArgs, ofClosing⟩ := by simpa using inside
    refine stand_cons.mpr ⟨List.forall_mem_cons.mpr ⟨?_, ?_⟩, stand_nil⟩
    · exact merges ofName ofClosing
    · exact stand_below (ih ofArgs)
  | hash name mark span =>
    obtain ⟨ofMark, ofName⟩ := by simpa using inside
    simpa [Expr.spans] using merges ofMark ofName
  | brackets opening closing _ ih =>
    obtain ⟨ofOpening, ofInner, ofClosing⟩ := by simpa using inside
    refine stand_cons.mpr ⟨List.forall_mem_cons.mpr ⟨?_, ?_⟩, stand_nil⟩
    · exact merges ofOpening ofClosing
    · exact (stand_cons.mp (ih ofInner)).1
  | moreArguments comma _ _ ihFirst ihOthers =>
    obtain ⟨ofFirst, _, ofOthers⟩ := by simpa using inside
    exact stand_cons.mpr ⟨(stand_cons.mp (ihFirst ofFirst)).1, ihOthers ofOthers⟩

end

/-! ## Where reading fails -/

namespace Parser

section
variable {places : Span → Prop} {eof : Nat}

/-- What was read in front of a rest does not matter for where the rest stands. -/
private theorem allAt_rest {input rest : List Token} {derived : List Token → Prop}
    (read : ∃ used, input = used ++ rest ∧ derived used) (inside : AllAt places input) :
    AllAt places rest := by
  obtain ⟨used, rfl, _⟩ := read
  exact (allAt_append.mp inside).2

private theorem placed_unexpected (atEnd : places (.point eof)) (expected : Expectation)
    {input : List Token} (inside : AllAt places input) :
    places (unexpected eof expected input).span := by
  cases input with
  | nil => exact atEnd
  | cons found rest => exact (allAt_cons.mp inside).1

private theorem placed_name (atEnd : places (.point eof)) {expected : Expectation} {input : List Token}
    (inside : AllAt places input) {error : SyntaxError} (failed : name eof expected input = .error error) :
    places error.span := by
  unfold name at failed
  split at failed
  · cases failed
  · obtain rfl := Except.error.inj failed
    exact placed_unexpected atEnd expected inside

private theorem placed_mark (atEnd : places (.point eof)) {kind : TokenKind} {expected : Expectation}
    {input : List Token} (inside : AllAt places input) {error : SyntaxError}
    (failed : mark eof kind expected input = .error error) : places error.span := by
  unfold mark at failed
  split at failed
  · cases failed
  · obtain rfl := Except.error.inj failed
    exact placed_unexpected atEnd expected inside

mutual

theorem expression_fails (atEnd : places (.point eof)) {input : List Token}
    (inside : AllAt places input) {error : SyntaxError} (failed : expression eof input = .error error) :
    places error.span := by
  rw [expression] at failed
  split at failed
  · next cause first =>
    obtain rfl := Except.error.inj failed
    exact chain_fails atEnd inside first
  · next target middle shorter first =>
    have later := allAt_rest (chain_derives (gives_of_eq first)) inside
    rcases take?_spec .equals middle with ⟨missing, _⟩ | ⟨sign, after, fit, same, taken⟩
    · simp only [missing, reduceCtorEq] at failed
    · simp only [taken] at failed
      rw [same] at later
      split at failed
      · next cause second =>
        obtain rfl := Except.error.inj failed
        exact expression_fails atEnd (allAt_cons.mp later).2 second
      · cases failed
termination_by (input.length, 4)
decreasing_by all_goals omega

theorem chain_fails (atEnd : places (.point eof)) {input : List Token}
    (inside : AllAt places input) {error : SyntaxError} (failed : chain eof input = .error error) :
    places error.span := by
  rw [chain] at failed
  split at failed
  · next cause first =>
    obtain rfl := Except.error.inj failed
    exact primary_fails atEnd inside first
  · next head middle shorter first =>
    have later := allAt_rest (primary_derives (gives_of_eq first)) inside
    split at failed
    · next cause second =>
      obtain rfl := Except.error.inj failed
      exact segments_fails atEnd later second
    · cases failed
termination_by (input.length, 3)
decreasing_by all_goals omega

theorem segments_fails (atEnd : places (.point eof)) {input : List Token}
    (inside : AllAt places input) {error : SyntaxError} (failed : segments eof input = .error error) :
    places error.span := by
  cases form : input with
  | nil =>
    rw [form, segments.eq_def] at failed
    cases failed
  | cons token after =>
    obtain ⟨kind, span⟩ := token
    rw [form] at failed inside
    have behind := (allAt_cons.mp inside).2
    cases kind with
    | dot =>
      rw [segments] at failed
      split at failed
      · next cause first =>
        obtain rfl := Except.error.inj failed
        exact placed_name atEnd behind first
      · next text place middle shorter named =>
        have front := gives_name.mp (gives_of_eq named)
        rw [front] at behind
        have later := (allAt_cons.mp behind).2
        split at failed
        · next cause second =>
          obtain rfl := Except.error.inj failed
          exact segment_fails atEnd later second
        · next first rest fit ofFirst =>
          split at failed
          · next cause third =>
            obtain rfl := Except.error.inj failed
            exact segments_fails atEnd (allAt_rest (segment_derives (gives_of_eq ofFirst)) later) third
          · cases failed
    | openBracket =>
      rw [segments] at failed
      split at failed
      · next cause first =>
        obtain rfl := Except.error.inj failed
        exact indexer_fails atEnd behind first
      · next first middle shorter ofFirst =>
        split at failed
        · next cause second =>
          obtain rfl := Except.error.inj failed
          exact segments_fails atEnd (allAt_rest (indexer_derives (gives_of_eq ofFirst)) behind) second
        · cases failed
    | _ =>
      rw [segments.eq_def] at failed
      cases failed
termination_by (input.length, 3)
decreasing_by
  all_goals
    have := congrArg List.length form
    simp only [List.length_cons] at *
    omega

theorem primary_fails (atEnd : places (.point eof)) {input : List Token}
    (inside : AllAt places input) {error : SyntaxError} (failed : primary eof input = .error error) :
    places error.span := by
  cases form : input with
  | nil =>
    rw [form, primary.eq_def] at failed
    obtain rfl := Except.error.inj failed
    exact atEnd
  | cons token after =>
    obtain ⟨kind, span⟩ := token
    rw [form] at failed inside
    obtain ⟨here, behind⟩ := allAt_cons.mp inside
    cases kind with
    | literal value =>
      rw [primary] at failed
      cases failed
    | openParen =>
      rw [primary] at failed
      split at failed
      · next cause first =>
        obtain rfl := Except.error.inj failed
        exact expression_fails atEnd behind first
      · next inner middle shorter ofInner =>
        split at failed
        · next cause second =>
          obtain rfl := Except.error.inj failed
          exact placed_mark atEnd (allAt_rest (expression_derives (gives_of_eq ofInner)) behind) second
        · cases failed
    | hash =>
      rw [primary] at failed
      split at failed
      · next cause first =>
        obtain rfl := Except.error.inj failed
        exact placed_name atEnd behind first
      · cases failed
    | name text =>
      rw [primary] at failed
      split at failed
      · next cause first =>
        obtain rfl := Except.error.inj failed
        exact segment_fails atEnd behind first
      · cases failed
    | openBracket =>
      rw [primary] at failed
      split at failed
      · next cause first =>
        obtain rfl := Except.error.inj failed
        exact indexer_fails atEnd behind first
      · cases failed
    | _ =>
      rw [primary.eq_def] at failed
      obtain rfl := Except.error.inj failed
      exact here
termination_by (input.length, 2)
decreasing_by
  all_goals
    have := congrArg List.length form
    simp only [List.length_cons] at *
    omega

theorem segment_fails (atEnd : places (.point eof)) {text : String} {span : Span} {dotted : Bool}
    {input : List Token} (inside : AllAt places input) {error : SyntaxError}
    (failed : segment eof text span dotted input = .error error) : places error.span := by
  rw [segment] at failed
  rcases take?_spec .openParen input with ⟨missing, _⟩ | ⟨opening, after, shorter, same, taken⟩
  · simp only [missing, reduceCtorEq] at failed
  · simp only [taken] at failed
    rw [same] at inside
    have behind := (allAt_cons.mp inside).2
    rcases take?_spec .closeParen after with ⟨missing, _⟩ | ⟨closing, last, fit, same', taken'⟩
    · simp only [missing] at failed
      split at failed
      · next cause first =>
        obtain rfl := Except.error.inj failed
        exact arguments_fails atEnd behind first
      · next args middle fit ofArgs =>
        split at failed
        · next cause second =>
          obtain rfl := Except.error.inj failed
          exact placed_mark atEnd (allAt_rest (arguments_derives (gives_of_eq ofArgs)) behind) second
        · cases failed
    · simp only [taken', reduceCtorEq] at failed
termination_by (input.length, 1)
decreasing_by all_goals omega

theorem arguments_fails (atEnd : places (.point eof)) {input : List Token}
    (inside : AllAt places input) {error : SyntaxError} (failed : arguments eof input = .error error) :
    places error.span := by
  rw [arguments] at failed
  split at failed
  · next cause first =>
    obtain rfl := Except.error.inj failed
    exact expression_fails atEnd inside first
  · next first middle shorter ofFirst =>
    have later := allAt_rest (expression_derives (gives_of_eq ofFirst)) inside
    rcases take?_spec .comma middle with ⟨missing, _⟩ | ⟨comma, after, fit, same, taken⟩
    · simp only [missing, reduceCtorEq] at failed
    · simp only [taken] at failed
      rw [same] at later
      split at failed
      · next cause second =>
        obtain rfl := Except.error.inj failed
        exact arguments_fails atEnd (allAt_cons.mp later).2 second
      · cases failed
termination_by (input.length, 5)
decreasing_by all_goals omega

theorem indexer_fails (atEnd : places (.point eof)) {opening : Span} {input : List Token}
    (inside : AllAt places input) {error : SyntaxError}
    (failed : indexer eof opening input = .error error) : places error.span := by
  rw [indexer] at failed
  split at failed
  · next cause first =>
    obtain rfl := Except.error.inj failed
    exact expression_fails atEnd inside first
  · next index middle shorter ofIndex =>
    split at failed
    · next cause second =>
      obtain rfl := Except.error.inj failed
      exact placed_mark atEnd (allAt_rest (expression_derives (gives_of_eq ofIndex)) inside) second
    · cases failed
termination_by (input.length, 5)
decreasing_by all_goals omega

end

/-- A list of tokens that is no expression is refused at one of the tokens or at the end. -/
theorem complete_fails (atEnd : places (.point eof)) {input : List Token}
    (inside : AllAt places input) {error : SyntaxError} (failed : complete eof input = .error error) :
    places error.span := by
  unfold complete at failed
  split at failed
  · next cause first =>
    obtain rfl := Except.error.inj failed
    exact expression_fails atEnd inside first
  · cases failed
  · next found rest fit first =>
    obtain rfl := Except.error.inj failed
    exact (allAt_cons.mp (allAt_rest (expression_derives (gives_of_eq first)) inside)).1

end

end Parser

/-! ## Sources -/

namespace Expr

/-- Every node of a tree that was read stands inside the source text. -/
theorem parse_marks {source : String} {e : Expr} (parsed : parse source = .ok e) :
    ∀ span ∈ e.spans, span.Marks source.toList := by
  obtain ⟨tokens, read, derived⟩ := of_parse parsed
  have placed := Lexer.placed_scan [] source.toList
  rw [Text.bytes_nil, read] at placed
  have stand : Stand (·.Marks source.toList) [e] := stand_of_derives Span.Marks.merge derived placed
  exact (stand_cons.mp stand).1

/-- A source text that is no expression is refused at a place inside it. -/
theorem parse_refuses {source : String} {error : SyntaxError} (refused : parse source = .error error) :
    error.span.Marks source.toList := by
  have placed := Lexer.placed_scan [] source.toList
  rw [Text.bytes_nil, List.nil_append] at placed
  unfold parse Lexer.tokens at refused
  cases read : Lexer.scan 0 source.toList with
  | error cause =>
    rw [read] at refused placed
    obtain rfl := Except.error.inj refused
    exact placed
  | ok tokens =>
    rw [read] at refused placed
    simp only [bind, Except.bind] at refused
    split at refused
    · obtain rfl := Except.error.inj refused
      exact Span.Marks.unplaced _
    · next eof place =>
      obtain ⟨rfl, _⟩ := (Span.ofRange_eq_ok_iff ..).mp place
      have inside : AllAt (·.Marks source.toList) tokens := placed
      exact Parser.complete_fails (Span.Marks.point source.toList) inside refused

end Expr

end DotChain
