import DotChain.Command
import DotChain.Proofs.Law
import DotChain.Proofs.Places

/-!
# Blame

What a user is shown when a command fails because of an expression. Main statement:
`failure_located`: the failure has a place inside the text that is to blame, and the report shows
the line there. An evaluation is at fault at its own nodes only (`Law.blame`); which of two texts a
report quotes is settled by how the commands fail (`EvalFails`, `SetFails`).
-/

namespace DotChain

/-! ## Reports on a marked place -/

namespace Diagnostic

/-- A source text cut up around a span: the lines above and below the one in which the span starts, and
of that line what stands in front of the span, what the span marks and what stands behind. -/
structure Marking (source : List Char) (span : Span) where
  above : List Char
  front : List Char
  marked : List Char
  back : List Char
  below : List Char
  whole : source = above ++ (front ++ marked ++ back) ++ below
  opens : above = [] ∨ ∃ lines, above = lines ++ ['\n']
  oneLine : '\n' ∉ front ++ marked ++ back
  closes : below = [] ∨ ∃ lines, below = '\n' :: lines
  start : Text.bytes (above ++ front) = span.start
  /-- The span ends behind what it marks or in a later line. -/
  stop : Text.bytes (above ++ front ++ marked) =
    min span.stop (Text.bytes (above ++ (front ++ marked ++ back)))

/-- A line of a report with carets below a part of it, at least one. -/
def Marking.carets {source : List Char} {span : Span} (cut : Marking source span) : String :=
  "  |\n  | " ++ String.ofList (cut.front ++ cut.marked ++ cut.back) ++ "\n  | " ++
    String.ofList (List.replicate cut.front.length ' ' ++
      List.replicate (max cut.marked.length 1) '^')

private theorem firstLine_split (text : List Char) :
    '\n' ∉ firstLine text ∧ ∃ below, text = firstLine text ++ below ∧
      (below = [] ∨ ∃ lines, below = '\n' :: lines) := by
  induction text with
  | nil => exact ⟨List.not_mem_nil, [], rfl, .inl rfl⟩
  | cons c text ih =>
    by_cases ends : c = '\n'
    · subst ends
      exact ⟨List.not_mem_nil, '\n' :: text, rfl, .inr ⟨text, rfl⟩⟩
    · obtain ⟨inside, below, whole, closes⟩ := ih
      have first : firstLine (c :: text) = c :: firstLine text := by simp [firstLine, ends]
      refine ⟨?_, below, ?_, closes⟩
      · rw [first, List.mem_cons, not_or]
        exact ⟨Ne.symm ends, inside⟩
      · rw [first, List.cons_append, ← whole]

private theorem lastLine_split (text : List Char) :
    '\n' ∉ lastLine text ∧ ∃ above, text = above ++ lastLine text ∧
      (above = [] ∨ ∃ lines, above = lines ++ ['\n']) := by
  obtain ⟨inside, below, whole, closes⟩ := firstLine_split text.reverse
  refine ⟨fun member => inside (List.mem_reverse.mp member), below.reverse, ?_, ?_⟩
  · rw [lastLine, ← List.reverse_append, ← whole, List.reverse_reverse]
  · rcases closes with rfl | ⟨lines, rfl⟩
    · exact .inl rfl
    · exact .inr ⟨lines.reverse, List.reverse_cons⟩

theorem firstLine_append {front : List Char} (inside : '\n' ∉ front) (back : List Char) :
    firstLine (front ++ back) = front ++ firstLine back := by
  refine List.takeWhile_append_of_pos fun c member => ?_
  have : c ≠ '\n' := fun same => inside (same ▸ member)
  simpa using this

/-- The line of a text that starts with a front: the front's own line, or more than the front. -/
private theorem firstLine_cut (covered after : List Char) :
    ∃ back, firstLine (covered ++ after) = firstLine covered ++ back ∧
      (firstLine covered = covered ∨ back = []) := by
  by_cases inside : '\n' ∈ covered
  · obtain ⟨only, below, whole, closes⟩ := firstLine_split covered
    rcases closes with rfl | ⟨lines, rfl⟩
    · rw [List.append_nil] at whole
      exact absurd (whole ▸ inside) only
    · refine ⟨[], ?_, .inr rfl⟩
      calc firstLine (covered ++ after)
        _ = firstLine (firstLine covered ++ ('\n' :: (lines ++ after))) := by
          rw [← List.cons_append, ← List.append_assoc, ← whole]
        _ = firstLine covered ++ [] := firstLine_append only _
  · have whole : firstLine covered = covered := by
      simpa [firstLine] using firstLine_append inside []
    exact ⟨firstLine after, by rw [whole, firstLine_append inside], .inl whole⟩

/-- A place inside a source text can be shown. -/
theorem exists_marking {source : List Char} {span : Span} (inside : span.Marks source) :
    ∃ cut : Marking source span, Excerpt.of? source span = some
      ⟨cut.front ++ cut.marked ++ cut.back, cut.front.length, max cut.marked.length 1⟩ := by
  obtain ⟨order, ⟨left, right, rfl, start⟩, boundary⟩ := inside
  have within := boundary.le_bytes
  obtain ⟨left', after, same, stop⟩ := boundary
  obtain ⟨covered, rfl, rfl⟩ := Text.append_of_bytes_le same (by omega)
  obtain ⟨noBreak, above, ofLeft, opens⟩ := lastLine_split left
  obtain ⟨noBreak', below, ofRight, closes⟩ := firstLine_split (covered ++ after)
  obtain ⟨back, line, ends⟩ := firstLine_cut covered after
  have covers : Text.bytes covered = span.stop - span.start := by
    rw [Text.bytes_append] at stop
    omega
  have whole : left ++ (covered ++ after) =
      above ++ (lastLine left ++ firstLine covered ++ back) ++ below := by
    rw [List.append_assoc (lastLine left), ← line, ← List.append_assoc above, ← ofLeft,
      List.append_assoc left, ← ofRight]
  have size : Text.bytes (above ++ lastLine left) = span.start := by rw [← ofLeft, start]
  refine ⟨⟨above, lastLine left, firstLine covered, back, below, whole, opens, ?_, closes, size, ?_⟩, ?_⟩
  · rw [List.append_assoc, ← line]
    exact fun member => (List.mem_append.mp member).elim noBreak noBreak'
  · -- the span ends in its first line, or that line ends first
    have least : Text.bytes (firstLine covered) ≤ Text.bytes covered := by
      obtain ⟨_, rest, same, _⟩ := firstLine_split covered
      have grown := congrArg Text.bytes same
      rw [Text.bytes_append] at grown
      omega
    rw [Text.bytes_append, size, ← List.append_assoc, ← List.append_assoc, Text.bytes_append,
      Text.bytes_append (above ++ lastLine left), size]
    rcases ends with full | none
    · rw [full]
      omega
    · rw [none, Text.bytes_nil]
      omega
  · have total : span.start ≤ Text.bytes (left ++ (covered ++ after)) := by
      rw [Text.bytes_append]
      omega
    have first : Text.splitAt? span.start (left ++ (covered ++ after)) = some (left, covered ++ after) :=
      Text.splitAt?_eq_some_iff.mpr ⟨rfl, start⟩
    have second : Text.splitAt? (span.stop - span.start) (covered ++ after) = some (covered, after) :=
      Text.splitAt?_eq_some_iff.mpr ⟨rfl, covers⟩
    simp only [Excerpt.of?, Nat.min_eq_left total, Nat.max_eq_left order, Nat.min_eq_left within, first,
      second, line, List.append_assoc]

/-- The report of a message on a marked place shows the line with the marks. -/
theorem render_marks {source : String} (message : String) {span : Span}
    (inside : span.Marks source.toList) : ∃ cut : Marking source.toList span,
      render source message (some span) = "error: " ++ message ++ "\n" ++ cut.carets ++ "\n" := by
  obtain ⟨cut, shown⟩ := exists_marking inside
  refine ⟨cut, ?_⟩
  simp only [render, Option.bind_some, shown, Excerpt.render, Marking.carets, String.append_assoc]

end Diagnostic

/-- What a user sees of a report on a marked place: the message, and the line with carets. -/
theorem Report.render_marks {report : Report} {span : Span} (place : report.error.span = some span)
    (inside : span.Marks report.source.toList) :
    ∃ cut : Diagnostic.Marking report.source.toList span,
      report.render = "error: " ++ report.error.message ++ "\n" ++ cut.carets := by
  obtain ⟨cut, shown⟩ := Diagnostic.render_marks report.error.message inside
  refine ⟨cut, ?_⟩
  -- the last caret stays when the end of the report is trimmed
  obtain ⟨carets, caret⟩ : ∃ front, ("error: " ++ report.error.message ++ "\n" ++ cut.carets).toList =
      front ++ ['^'] := by
    obtain ⟨width, marks⟩ := Nat.exists_eq_succ_of_ne_zero
      (Nat.ne_of_gt (Nat.le_max_right cut.marked.length 1))
    refine ⟨("error: " ++ report.error.message ++ "\n" ++ "  |\n  | " ++
      String.ofList (cut.front ++ cut.marked ++ cut.back) ++ "\n  | ").toList ++
      (List.replicate cut.front.length ' ' ++ List.replicate width '^'), ?_⟩
    simp only [Diagnostic.Marking.carets, marks, List.replicate_succ', String.toList_append,
      String.toList_ofList, List.append_assoc]
  have trimmed : Text.trimEnd (carets ++ ['^'] ++ ['\n']) = carets ++ ['^'] := by
    have blank : ∀ c ∈ ['\n'], Text.isBlank c = true := List.forall_mem_singleton.mpr rfl
    rw [Text.trimEnd_append_blank _ _ blank, Text.trimEnd_append_visible _ rfl]
  have whole : ("error: " ++ report.error.message ++ "\n" ++ cut.carets ++ "\n").toList =
      carets ++ ['^'] ++ ['\n'] := by
    rw [String.toList_append, caret]
    rfl
  have text : report.render = String.ofList (carets ++ ['^']) := by
    simp only [Report.render, place, shown, whole, trimmed]
  rw [text, ← caret, String.ofList_toList]

/-! ## Faults of an expression -/

/-- An error as expressions raise it: it has a place of a kind, the words for its fault and no notes. -/
structure EvalError.Raised (places : Span → Prop) (error : EvalError) : Prop where
  span : ∃ span, error.span = some span ∧ places span
  message : error.message = error.fault.message
  notes : error.notes = []

/-- The law of blame. An expression raises errors at its own nodes; the application is to blame for all
other failures. -/
def Law.blame (W : Type) (places : Span → Prop) : Law W where
  leads _ _ := True
  fails failure _ := ∀ error, failure = .eval error → error.Raised places
  places := places

private theorem raised_movedTo {places : Span → Prop} {failure : Failure} {span : Span}
    (placed : places span) (raised : ∀ error, failure = .eval error → error.Raised places) :
    ∀ error, failure.movedTo span = .eval error → error.Raised places := by
  intro error same
  cases failure with
  | eval cause =>
    obtain rfl := Failure.eval.inj same
    obtain ⟨_, message, notes⟩ := raised cause rfl
    exact ⟨⟨span, rfl, placed⟩, message, notes⟩
  | host cause => cases same

/-- Every step keeps to the law of blame. -/
theorem Law.blame_writing {W : Type} [Host W] (places : Span → Prop) :
    (Law.blame W places).Writing where
  refl _ := trivial
  trans _ _ := trivial
  scope _ _ := trivial
  node _ := trivial
  query _ _ := trivial
  fault placed fault _ error same := by
    obtain rfl := Failure.eval.inj same
    exact ⟨⟨_, rfl, placed⟩, rfl, rfl⟩
  moved placed raised := raised_movedTo placed raised
  failed_scope _ raised := raised
  failed_node raised := raised
  failed_call _ _ _ _ _ same := by cases same
  bind _ _ _ := trivial
  replace _ := trivial
  write _ := trivial
  host_write _ _ _ _ := trivial

/-! ## Failing commands -/

/-- A command failed because of an expression: a text is none, or its evaluation is at fault. -/
def CommandError.OfExpression : CommandError → Prop
  | .malformed _ => True
  | .failed (.eval _) => True
  | .failed (.host _) => False
  | .unreadableRoot => False

/-- A report that points to the place in its source text. -/
structure Report.Located (report : Report) : Prop where
  place : ∃ span, report.error.span = some span ∧
    span.start ≤ span.stop ∧ span.stop ≤ Text.bytes report.source.toList ∧
    Text.IsBoundary report.source.toList span.start ∧ Text.IsBoundary report.source.toList span.stop ∧
    ∃ cut : Diagnostic.Marking report.source.toList span,
      report.render = "error: " ++ report.error.message ++ "\n" ++ cut.carets
  /-- An evaluation is at fault at a node of the tree of the source text. -/
  fault {error : EvalError} : report.error = .failed (.eval error) →
    ∃ tree, Expr.parse report.source = .ok tree ∧ error.Raised (· ∈ tree.spans)

private theorem located_of_marks {report : Report} {span : Span} (place : report.error.span = some span)
    (inside : span.Marks report.source.toList)
    (fault : ∀ {error}, report.error = .failed (.eval error) →
      ∃ tree, Expr.parse report.source = .ok tree ∧ error.Raised (· ∈ tree.spans)) : report.Located :=
  ⟨⟨span, place, inside.ordered, inside.stop.le_bytes, inside.start, inside.stop,
    report.render_marks place inside⟩, fault⟩

private theorem located_malformed {source : String} {error : SyntaxError}
    (refused : Expr.parse source = .error error) : Report.Located ⟨source, .malformed error⟩ :=
  located_of_marks rfl (Expr.parse_refuses refused) fun same => by cases same

private theorem located_failed {α : Type} {source : String} {tree : Expr} {action : Eval Unit α}
    {state final : State Unit} {error : EvalError} (parsed : Expr.parse source = .ok tree)
    (kept : (Law.blame Unit (· ∈ tree.spans)).Kept action)
    (failed : action.outcome state = (.error (.eval error), final)) :
    Report.Located ⟨source, .failed (.eval error)⟩ := by
  have raised : error.Raised (· ∈ tree.spans) := (kept state).fails (congrArg Prod.fst failed) error rfl
  obtain ⟨span, place, node⟩ := raised.span
  refine located_of_marks place (Expr.parse_marks parsed span node) fun {other} same => ?_
  obtain rfl : error = other := by simpa using same
  exact ⟨tree, parsed, raised⟩

namespace Command

/-- How `eval` fails. The source is to blame, whatever goes wrong. -/
inductive EvalFails (source : String) (root : Option String) : Report → Prop where
  | malformed {error : SyntaxError} (refused : Expr.parse source = .error error) :
    EvalFails source root ⟨source, .malformed error⟩
  | unreadable {text : String} (given : root = some text) (refused : Json.read? text = none) :
    EvalFails source root ⟨source, .unreadableRoot⟩
  | failed {tree : Expr} {document : Json} {failure : Failure} {final : State Unit}
    (parsed : Expr.parse source = .ok tree) (given : readRoot source root = .ok document)
    (run : tree.evaluate.outcome (start document) = (.error failure, final)) :
    EvalFails source root ⟨source, .failed failure⟩

/-- How `set` fails. The operand is to blame for its own text and its own value, the target for the
rest. -/
inductive SetFails (target operand root : String) : Report → Prop where
  | malformedTarget {error : SyntaxError} (refused : Expr.parse target = .error error) :
    SetFails target operand root ⟨target, .malformed error⟩
  | malformedOperand {location : Expr} {error : SyntaxError} (parsed : Expr.parse target = .ok location)
    (refused : Expr.parse operand = .error error) : SetFails target operand root ⟨operand, .malformed error⟩
  | unreadable (refused : Json.read? root = none) :
    SetFails target operand root ⟨target, .unreadableRoot⟩
  | failedOperand {location value : Expr} {document : Json} {failure : Failure} {final : State Unit}
    (parsed : Expr.parse target = .ok location) (parsedOperand : Expr.parse operand = .ok value)
    (given : Json.read? root = some document)
    (run : value.evaluate.outcome (start document) = (.error failure, final)) :
    SetFails target operand root ⟨operand, .failed failure⟩
  | failedTarget {location value : Expr} {document : Json} {result : TypedValue} {failure : Failure}
    {state final : State Unit}
    (parsed : Expr.parse target = .ok location) (parsedOperand : Expr.parse operand = .ok value)
    (given : Json.read? root = some document)
    (evaluated : value.evaluate.outcome (start document) = (.ok result, state))
    (run : (location.store result).outcome state = (.error failure, final)) :
    SetFails target operand root ⟨target, .failed failure⟩

private theorem of_bind_error {α β : Type} {first : Except Report α} {next : α → Except Report β}
    {report : Report} (failed : first >>= next = .error report) :
    first = .error report ∨ ∃ value, first = .ok value ∧ next value = .error report := by
  cases first with
  | error cause =>
    obtain rfl := Except.error.inj failed
    exact .inl rfl
  | ok value => exact .inr ⟨value, rfl, failed⟩

private theorem of_read_error {source : String} {report : Report} (refused : read source = .error report) :
    ∃ error, Expr.parse source = .error error ∧ report = ⟨source, .malformed error⟩ := by
  unfold read Phrase.read at refused
  cases parsed : Expr.parse source with
  | error error =>
    rw [parsed] at refused
    exact ⟨error, rfl, (Except.error.inj refused).symm⟩
  | ok tree =>
    rw [parsed] at refused
    cases refused

private theorem of_read_ok {source : String} {phrase : Phrase} (done : read source = .ok phrase) :
    Expr.parse source = .ok phrase.tree ∧ phrase.source = source := by
  unfold read Phrase.read at done
  cases parsed : Expr.parse source with
  | error error =>
    rw [parsed] at done
    cases done
  | ok tree =>
    rw [parsed] at done
    obtain rfl := Except.ok.inj done
    exact ⟨rfl, rfl⟩

private theorem of_readRoot_error {source : String} {root : Option String} {report : Report}
    (refused : readRoot source root = .error report) :
    report = ⟨source, .unreadableRoot⟩ ∧ ∃ text, root = some text ∧ Json.read? text = none := by
  cases root with
  | none => cases refused
  | some text =>
    simp only [readRoot] at refused
    cases unread : Json.read? text with
    | some document =>
      rw [unread] at refused
      cases refused
    | none =>
      rw [unread] at refused
      exact ⟨(Except.error.inj refused).symm, text, rfl, unread⟩

private theorem of_readRoot_ok {source text : String} {document : Json}
    (done : readRoot source (some text) = .ok document) : Json.read? text = some document := by
  simp only [readRoot] at done
  cases read : Json.read? text with
  | none =>
    rw [read] at done
    cases done
  | some other =>
    rw [read] at done
    rw [Except.ok.inj done]

private theorem of_run_error {α : Type} {source : String} {action : Eval Unit α} {state : State Unit}
    {report : Report} (failed : run source action state = .error report) :
    ∃ failure final, action.outcome state = (.error failure, final) ∧
      report = ⟨source, .failed failure⟩ := by
  unfold run at failed
  rcases outcome : action.outcome state with ⟨_ | value, final⟩
  · rw [outcome] at failed
    exact ⟨_, final, rfl, (Except.error.inj failed).symm⟩
  · rw [outcome] at failed
    cases failed

private theorem of_run_ok {α : Type} {source : String} {action : Eval Unit α} {state final : State Unit}
    {value : α} (done : run source action state = .ok (value, final)) :
    action.outcome state = (.ok value, final) := by
  unfold run at done
  rcases outcome : action.outcome state with ⟨_ | result, reached⟩
  · rw [outcome] at done
    cases done
  · rw [outcome] at done
    obtain ⟨rfl, rfl⟩ := Prod.mk.inj (Except.ok.inj done)
    rfl

theorem eval_fails {source : String} {root : Option String} {report : Report}
    (failed : eval source root = .error report) : EvalFails source root report := by
  rcases of_bind_error failed with refused | ⟨phrase, done, failed⟩
  · obtain ⟨error, cause, rfl⟩ := of_read_error refused
    exact .malformed cause
  obtain ⟨parsed, _⟩ := of_read_ok done
  rcases of_bind_error failed with refused | ⟨document, given, failed⟩
  · obtain ⟨rfl, text, known, unread⟩ := of_readRoot_error refused
    exact .unreadable known unread
  rcases of_bind_error failed with stuck | ⟨result, _, failed⟩
  · obtain ⟨failure, final, run, rfl⟩ := of_run_error stuck
    exact .failed parsed given run
  · cases failed

theorem set_fails {target operand root : String} {report : Report}
    (failed : set target operand root = .error report) : SetFails target operand root report := by
  rcases of_bind_error failed with refused | ⟨location, done, failed⟩
  · obtain ⟨error, cause, rfl⟩ := of_read_error refused
    exact .malformedTarget cause
  obtain ⟨parsed, same⟩ := of_read_ok done
  rcases of_bind_error failed with refused | ⟨source, done', failed⟩
  · obtain ⟨error, cause, rfl⟩ := of_read_error refused
    exact .malformedOperand parsed cause
  obtain ⟨parsedOperand, same'⟩ := of_read_ok done'
  rcases of_bind_error failed with refused | ⟨document, given, failed⟩
  · obtain ⟨rfl, text, known, unread⟩ := of_readRoot_error refused
    obtain rfl := Option.some.inj known
    exact .unreadable unread
  have read : Json.read? root = some document := of_readRoot_ok given
  rcases of_bind_error failed with stuck | ⟨_, _, failed⟩
  · rcases of_bind_error stuck with stuck | ⟨⟨result, state⟩, evaluated, failed⟩
    · obtain ⟨failure, final, run, rfl⟩ := of_run_error stuck
      rw [same']
      exact .failedOperand parsed parsedOperand read run
    rcases of_bind_error failed with stuck | ⟨_, _, failed⟩
    · obtain ⟨failure, final, run, rfl⟩ := of_run_error stuck
      rw [same]
      exact .failedTarget parsed parsedOperand read (of_run_ok evaluated) run
    · cases failed
  · cases failed

/-- Whenever a command fails because of an expression, it reports the text of that expression and a place
in it. -/
theorem failure_located :
    (∀ (source : String) (root : Option String) (report : Report),
      eval source root = .error report → report.error.OfExpression →
        report.Located ∧ EvalFails source root report) ∧
    (∀ (target operand root : String) (report : Report),
      set target operand root = .error report → report.error.OfExpression →
        report.Located ∧ SetFails target operand root report) := by
  constructor
  · intro source root report failed ofExpression
    have fails := eval_fails failed
    refine ⟨?_, fails⟩
    cases fails with
    | malformed refused => exact located_malformed refused
    | unreadable => exact ofExpression.elim
    | @failed tree document failure final parsed given run =>
      cases failure with
      | host => exact ofExpression.elim
      | eval error => exact located_failed parsed (tree.keeps (Law.blame_writing _) fun _ node => node).evaluate run
  · intro target operand root report failed ofExpression
    have fails := set_fails failed
    refine ⟨?_, fails⟩
    cases fails with
    | malformedTarget refused => exact located_malformed refused
    | malformedOperand _ refused => exact located_malformed refused
    | unreadable => exact ofExpression.elim
    | @failedOperand location value document failure final parsed parsedOperand given run =>
      cases failure with
      | host => exact ofExpression.elim
      | eval error =>
        exact located_failed parsedOperand
          (value.keeps (Law.blame_writing _) fun _ node => node).evaluate run
    | @failedTarget location value document result failure state final parsed parsedOperand given _ run =>
      cases failure with
      | host => exact ofExpression.elim
      | eval error =>
        exact located_failed parsed
          ((location.keeps (Law.blame_writing _) fun _ node => node).assign result) run

/-- A property of a text that stands in its second line. -/
private def secondLine : Expr :=
  .chain (.literal (.text "é") ⟨0, 4⟩) [.property "b" true ⟨6, 7⟩] ⟨0, 7⟩

/-- What is wrong with it. -/
private def noSuchProperty : EvalError :=
  ⟨.propertyNotFound "b" "string", "property 'b' cannot be found on object of type 'string'",
    some ⟨6, 7⟩, []⟩

private theorem parse_secondLine : Expr.parse "'é'\n.b" = .ok secondLine := by
  have tokens : Lexer.scan 0 "'é'\n.b".toList =
      .ok [⟨.literal (.text "é"), ⟨0, 4⟩⟩, ⟨.dot, ⟨5, 6⟩⟩, ⟨.name "b", ⟨6, 7⟩⟩] := by
    simp [Lexer.scan, Lexer.isGap, Lexer.reach, Lexer.isNameStart, isDigit, Lexer.ofLexeme?,
      Lexer.ofMark?, Lexer.ofName, Lexer.run, Lexer.quoteReach, Text.unquote?, Text.unquoteRest?,
      Span.ofRange, Span.offsetLimit, Text.bytes, Except.map, Char.utf8Size]
  exact Expr.parse_of_derives tokens (by decide) (.plain (Parser.derives_ofChain
    (.literal (.text "é") ⟨0, 4⟩) (.dotLink ⟨5, 6⟩ (.property "b" ⟨6, 7⟩ true) .noLink)))

private theorem parse_name : Expr.parse "a" = .ok (.property "a" false ⟨0, 1⟩) := by
  have tokens : Lexer.scan 0 "a".toList = .ok [⟨.name "a", ⟨0, 1⟩⟩] := by
    simp [Lexer.scan, Lexer.isGap, Lexer.reach, Lexer.isNameStart, Lexer.ofLexeme?, Lexer.ofName,
      Lexer.run, Span.ofRange, Span.offsetLimit, Text.bytes, Except.map, Char.utf8Size]
  exact Expr.parse_of_derives tokens (by decide) (.plain (.single (.ofSegment (.property "a" ⟨0, 1⟩ false))))

/-- The second line is shown, also when the value of an operand is to blame. -/
theorem failure_located_secondLine :
    eval "'é'\n.b" none = .error ⟨"'é'\n.b", .failed (.eval noSuchProperty)⟩ ∧
    set "a" "'é'\n.b" "null" = .error ⟨"'é'\n.b", .failed (.eval noSuchProperty)⟩ ∧
    (⟨"'é'\n.b", .failed (.eval noSuchProperty)⟩ : Report).Located ∧
    EvalFails "'é'\n.b" none ⟨"'é'\n.b", .failed (.eval noSuchProperty)⟩ ∧
    SetFails "a" "'é'\n.b" "null" ⟨"'é'\n.b", .failed (.eval noSuchProperty)⟩ := by
  have evaluated : eval "'é'\n.b" none = .error ⟨"'é'\n.b", .failed (.eval noSuchProperty)⟩ := by
    simp only [eval, Command.read, Phrase.read, parse_secondLine]
    rfl
  have stored : set "a" "'é'\n.b" "null" = .error ⟨"'é'\n.b", .failed (.eval noSuchProperty)⟩ := by
    have root : Json.read? "null" = some .null := by
      rw [Json.read?, Json.Reader.value]
      rfl
    simp only [set, Command.read, Phrase.read, parse_secondLine, parse_name, readRoot, root]
    rfl
  obtain ⟨located, evalFails⟩ := failure_located.1 _ _ _ evaluated trivial
  obtain ⟨_, setFails⟩ := failure_located.2 _ _ _ _ stored trivial
  exact ⟨evaluated, stored, located, evalFails, setFails⟩

end Command

end DotChain
