import Mathlib
import DotChain.Command
import DotChain.Outcome
import DotChain.Proofs.Grammar
import DotChain.Proofs.Lexemes
import DotChain.Proofs.Steps

/-!
# Updates of documents

To store a literal at a path in a document is to put it there. Main statement: `set_path`. A path is read
as the chain of its steps (`Path.parse`), a chain of steps reads from the heap what the steps read and
stores what they store (`ends_path`), and what is stored in the heap is put in the document
(`Shows.store_path`). What is put is found there, and nothing else changes (`Path.at?_put?`,
`Path.at?_put?_apart`).
-/

namespace DotChain

open Grammar DotChain.Path

variable {α β : Type}

/-! ## How computations end -/

/-- How a computation ends: with a value and a heap, while all else but the counts is as it was, or with an
error of the expression. -/
def Eval.Ends (action : Eval Unit α) (state : State Unit) : Option (α × Heap) → Prop
  | some (value, heap) => ∃ counters,
    action.outcome state = (.ok value, { state.withHeap heap with counters := counters })
  | none => ∃ error final, action.outcome state = (.error (.eval error), final)

/-- Nodes may nest some levels deeper. -/
structure State.Room (levels : Nat) (state : State Unit) : Prop where
  config : state.config = .standard
  depth : state.depth + levels ≤ 512

namespace Eval

variable {state : State Unit}

theorem ends_pure (value : α) (state : State Unit) :
    Ends (pure value) state (some (value, state.heap)) :=
  ⟨state.counters, rfl⟩

theorem ends_fault (fault : Fault) (span : Span) (state : State Unit) :
    Ends (Eval.fault fault span : Eval Unit α) state none :=
  ⟨_, _, rfl⟩

theorem ends_orFault (found : Option α) (fault : Fault) (span : Span) (state : State Unit) :
    Ends (orFault found fault span) state (found.map (·, state.heap)) := by
  cases found with
  | none => exact ends_fault fault span state
  | some value => exact ends_pure value state

theorem ends_get {next : State Unit → Eval Unit β} {result : Option (β × Heap)}
    (after : Ends (next state) state result) : Ends (get >>= next) state result := by
  have same : (get >>= next).outcome state = (next state).outcome state := by
    rw [outcome_bind, outcome_get]
  cases result with
  | none =>
    obtain ⟨error, final, run⟩ := after
    exact ⟨error, final, same.trans run⟩
  | some found =>
    obtain ⟨counters, run⟩ := after
    exact ⟨counters, same.trans run⟩

/-- After a computation that only reads, the next one finds what the first one found. -/
theorem ends_bind {first : Eval Unit α} {found : Option α} {next : α → Eval Unit β}
    {result : α → Option (β × Heap)} (before : Ends first state (found.map (·, state.heap)))
    (after : ∀ value counters, found = some value →
      Ends (next value) { state with counters := counters } (result value)) :
    Ends (first >>= next) state (found.bind result) := by
  cases found with
  | none =>
    obtain ⟨error, final, run⟩ := before
    exact ⟨error, final, by rw [outcome_bind, run]⟩
  | some value =>
    obtain ⟨counters, run⟩ := before
    have whole : (first >>= next).outcome state =
        (next value).outcome { state with counters := counters } := by
      rw [outcome_bind, run]
      rfl
    have ends := after value counters rfl
    cases outcome : result value with
    | none =>
      rw [outcome] at ends
      obtain ⟨error, final, run⟩ := ends
      rw [Option.bind_some, outcome]
      exact ⟨error, final, whole.trans run⟩
    | some found =>
      rw [outcome] at ends
      obtain ⟨counters', run⟩ := ends
      rw [Option.bind_some, outcome]
      exact ⟨counters', whole.trans run⟩

theorem ends_inNode {span : Span} {body : Eval Unit α} {levels : Nat} (room : state.Room (levels + 1))
    {result : Option (α × Heap)} (inside : state.enter.Room levels → Ends body state.enter result) :
    Ends (inNode span body) state result := by
  obtain ⟨config, depth⟩ := room
  have open_ : state.exhausted? = none := by
    have shallow : ¬ 512 ≤ state.depth := by omega
    simp [State.exhausted?, config, Config.standard, shallow]
  have run : (inNode span body).outcome state =
      ((body.outcome state.enter).1, (body.outcome state.enter).2.leave) := by
    rw [outcome_inNode, open_]
  have below : state.enter.depth = state.depth + 1 := rfl
  have ends := inside ⟨config, by omega⟩
  cases result with
  | none =>
    obtain ⟨error, final, inner⟩ := ends
    exact ⟨error, final.leave, by rw [run, inner]⟩
  | some found =>
    obtain ⟨counters, inner⟩ := ends
    exact ⟨counters, by rw [run, inner]; rfl⟩

theorem ends_inScope {value : TypedValue} {body : Eval Unit α} {result : Option (α × Heap)}
    (inside : Ends body (state.push value) result) : Ends (inScope value body) state result := by
  cases result with
  | none =>
    obtain ⟨error, final, inner⟩ := inside
    exact ⟨error, final.cut state.contexts.length, by rw [outcome_inScope, inner]⟩
  | some found =>
    obtain ⟨counters, inner⟩ := inside
    refine ⟨?_, ?_⟩
    rotate_left
    · rw [outcome_inScope, inner]
      simp only [State.cut, State.push, State.withHeap, List.length_cons, Nat.add_sub_cancel_left,
        List.drop_succ_cons, List.drop_zero]
      rfl

theorem ends_positioned {span : Span} {body : Eval Unit α} {result : Option (α × Heap)}
    (inside : Ends body state result) : Ends (positioned false span body) state result := by
  cases result with
  | none =>
    obtain ⟨error, final, inner⟩ := inside
    exact ⟨error, final, by rw [outcome_positioned, inner]; rfl⟩
  | some found =>
    obtain ⟨counters, inner⟩ := inside
    exact ⟨counters, by rw [outcome_positioned, inner]; rfl⟩

theorem ends_orFault_then (found : Option α) (fault : Fault) (span : Span) (state : State Unit)
    {next : α → Eval Unit β} {f : α → β}
    (after : ∀ value, Ends (next value) state (some (f value, state.heap))) :
    Ends (orFault found fault span >>= next) state ((found.map f).map (·, state.heap)) := by
  cases found with
  | none => exact ⟨_, _, rfl⟩
  | some value =>
    have same : orFault (W := Unit) (some value) fault span >>= next = next value := pure_bind value next
    rw [same]
    exact after value

/-- What the application without objects answers. -/
theorem ends_host (value : α) (state : State Unit) :
    Ends (Eval.host (pure value)) state (some (value, state.heap)) :=
  ⟨state.counters, rfl⟩

theorem ends_seq {first : Eval Unit α} {value : α} {next : α → Eval Unit β}
    {result : Option (β × Heap)} (before : Ends first state (some (value, state.heap)))
    (after : ∀ counters, Ends (next value) { state with counters := counters } result) :
    Ends (first >>= next) state result := by
  have given : Ends first state ((some value).map (·, state.heap)) := before
  have whole : Ends (first >>= next) state ((some value).bind fun _ => result) :=
    ends_bind given fun found counters same => by
      obtain rfl := Option.some.inj same
      exact after counters
  exact whole

end Eval

open Eval

/-! ## Steps of a path -/

/-- A step is written as a node. -/
inductive Path.Step.Denotes : Step → Expr → Prop where
  | name (name : String) (dotted : Bool) (span : Span) :
    Denotes (.member name false) (.property name dotted span)
  | quoted (name : String) (inner span : Span) :
    Denotes (.member name true) (.indexer (.literal (.text name) inner) span)
  | item (index : Int64) (inner span : Span) :
    Denotes (.item index) (.indexer (.literal (.int index) inner) span)

section
variable {state : State Unit}

theorem ends_literal (value : Literal) (span : Span) (room : state.Room 1) :
    Ends (Expr.literal value span).evaluate state (some (value.typed, state.heap)) :=
  ends_inNode room fun _ => ends_pure value.typed state.enter

private theorem ends_key (value : Literal) (span : Span) (room : state.Room 1) :
    Ends (Indexer.key (Expr.literal value span).evaluate) state
      (some (value.typed.value, state.heap)) := by
  refine ends_get (ends_seq (ends_inScope (ends_literal value span ?_)) fun counters => ?_)
  · exact ⟨room.config, room.depth⟩
  · exact ends_pure _ _

private theorem ends_property (name : String) (span : Span) (state : State Unit) :
    Ends (Property.evaluate name span) state
      (((Step.member name false).read? state.heap state.current.value).map (·, state.heap)) := by
  refine ends_get ?_
  cases context : state.current.value with
  | null => exact ends_fault _ span state
  | object id => exact ends_orFault _ _ span state
  | host id => exact ends_seq (ends_host none state) fun counters => ⟨_, _, rfl⟩
  | bool value => exact ⟨_, _, rfl⟩
  | int value => exact ⟨_, _, rfl⟩
  | float value => exact ⟨_, _, rfl⟩
  | text text => exact ends_orFault_then _ _ span state fun length => ends_pure _ state
  | list id => exact ends_orFault_then _ _ span state fun length => ends_pure _ state

private theorem ends_indexer_item (index : Int64) (inner span : Span) (room : state.Room 1) :
    Ends (Indexer.evaluate (Expr.literal (.int index) inner).evaluate span) state
      (((Step.item index).read? state.heap state.current.value).map (·, state.heap)) := by
  refine ends_get (ends_seq (ends_key (.int index) inner room) fun counters => ends_get ?_)
  cases context : state.current.value with
  | list id => exact ends_orFault _ _ span _
  | text text => exact ends_orFault _ _ span _
  | _ => exact ends_fault _ span _

private theorem ends_indexer_member (name : String) (inner span : Span) (room : state.Room 1) :
    Ends (Indexer.evaluate (Expr.literal (.text name) inner).evaluate span) state
      (((Step.member name true).read? state.heap state.current.value).map (·, state.heap)) := by
  refine ends_get (ends_seq (ends_key (.text name) inner room) fun counters => ends_get ?_)
  cases context : state.current.value with
  | object id => exact ends_orFault _ _ span _
  | host id => exact ends_seq (ends_host none _) fun counters => ⟨_, _, rfl⟩
  | _ => exact ends_fault _ span _

/-- A step reads from the active context. -/
theorem ends_read {step : Step} {e : Expr} (denotes : step.Denotes e) (room : state.Room 2) :
    Ends e.evaluate state ((step.read? state.heap state.current.value).map (·, state.heap)) := by
  cases denotes with
  | name name dotted span => exact ends_inNode room fun _ => ends_property name span state.enter
  | quoted name inner span => exact ends_inNode room fun room => ends_indexer_member name inner span room
  | item index inner span => exact ends_inNode room fun room => ends_indexer_item index inner span room

private theorem ends_change (changed : Option Heap) (fault : Fault) (span : Span) (state : State Unit) :
    Ends (do set (state.withHeap (← orFault changed fault span))) state (changed.map ((), ·)) := by
  cases changed with
  | none => exact ⟨_, _, rfl⟩
  | some heap => exact ⟨state.counters, rfl⟩

private theorem ends_assign_property (name : String) (span : Span) (typed : TypedValue)
    (state : State Unit) :
    Ends (Property.assign name span typed) state
      (((Step.member name false).store? state.heap typed.value state.current.value).map ((), ·)) := by
  refine ends_get ?_
  have scalar (value : Value) (readOnly missing : Fault) :
      Ends (if (Property.length? state.heap value name).isSome then Eval.fault readOnly span
        else Eval.fault missing span : Eval Unit Unit) state none := by
    split
    · exact ends_fault readOnly span state
    · exact ends_fault missing span state
  cases context : state.current.value with
  | null => exact ends_fault _ span state
  | object id => exact ends_change _ _ span state
  | host id => exact ⟨_, _, rfl⟩
  | _ => exact scalar _ _ _

private theorem ends_assign_item (index : Int64) (inner span : Span) (typed : TypedValue)
    (room : state.Room 1) :
    Ends (Indexer.assign (Expr.literal (.int index) inner).evaluate span typed) state
      (((Step.item index).store? state.heap typed.value state.current.value).map ((), ·)) := by
  refine ends_get (ends_seq (ends_key (.int index) inner room) fun counters => ends_get ?_)
  cases context : state.current.value with
  | list id => exact ends_change _ _ span _
  | _ => exact ends_fault _ span _

private theorem ends_assign_member (name : String) (inner span : Span) (typed : TypedValue)
    (room : state.Room 1) :
    Ends (Indexer.assign (Expr.literal (.text name) inner).evaluate span typed) state
      (((Step.member name true).store? state.heap typed.value state.current.value).map ((), ·)) := by
  refine ends_get (ends_seq (ends_key (.text name) inner room) fun counters => ends_get ?_)
  cases context : state.current.value with
  | object id => exact ends_change _ _ span _
  | host id => exact ⟨_, _, rfl⟩
  | _ => exact ends_fault _ span _

/-- A step stores in the active context. -/
theorem ends_store {step : Step} {e : Expr} (denotes : step.Denotes e) (typed : TypedValue)
    (room : state.Room 2) :
    Ends (e.store typed) state
      ((step.store? state.heap typed.value state.current.value).map ((), ·)) := by
  cases denotes with
  | name name dotted span =>
    exact ends_inNode room fun _ => ends_assign_property name span typed state.enter
  | quoted name inner span =>
    exact ends_inNode room fun room => ends_assign_member name inner span typed room
  | item index inner span =>
    exact ends_inNode room fun room => ends_assign_item index inner span typed room

/-! ## Whole paths -/

/-- Segments read what their steps read, one after the other. -/
theorem ends_follow {steps : List Step} {es : List Expr} (denotes : List.Forall₂ Step.Denotes steps es)
    (typed : TypedValue) (room : state.Room 2) :
    Ends (Chain.follow false (es.map Expr.node) typed) state
      ((walk? state.heap steps typed).map (·, state.heap)) := by
  induction denotes generalizing typed state with
  | nil => exact ends_pure typed state
  | @cons step e steps es first others ih =>
    have inside : Ends e.evaluate (state.push typed)
        ((step.read? state.heap typed.value).map (·, state.heap)) :=
      ends_read first ⟨room.config, room.depth⟩
    have here : Ends (inScope typed (positioned false (e.node : Node Unit).span e.evaluate)) state
        ((step.read? state.heap typed.value).map (·, state.heap)) :=
      ends_inScope (ends_positioned inside)
    rw [walk?, Option.map_bind]
    exact ends_bind here fun next counters _ => ih next ⟨room.config, room.depth⟩

/-- An expression is the chain of the steps of a path. -/
inductive Path.Denotes : Path → Expr → Prop where
  | single {last : Step} {e : Expr} (only : last.Denotes e) : Denotes ⟨[], last⟩ e
  | chain {first last : Step} {between : List Step} {head final : Expr} {middle : List Expr} (span : Span)
    (ofHead : first.Denotes head) (ofMiddle : List.Forall₂ Step.Denotes between middle)
    (ofFinal : last.Denotes final) :
    Denotes ⟨first :: between, last⟩ (.chain head (middle ++ [final]) span)

private theorem ends_chainRead {first : Step} {between : List Step} {head : Expr} {middle : List Expr}
    (ofHead : first.Denotes head) (ofMiddle : List.Forall₂ Step.Denotes between middle)
    (room : state.Room 2) :
    Ends (Chain.read false head.node (middle.map Expr.node)) state
      ((walk? state.heap (first :: between) state.current).map (·, state.heap)) := by
  have here : Ends (positioned false (head.node : Node Unit).span head.evaluate) state
      ((first.read? state.heap state.current.value).map (·, state.heap)) :=
    ends_positioned (ends_read ofHead room)
  rw [walk?, Option.map_bind]
  exact ends_bind here fun next counters _ => ends_follow ofMiddle next ⟨room.config, room.depth⟩

/-- A path reads up to its last step, which stores. -/
theorem ends_path {path : Path} {e : Expr} (denotes : path.Denotes e) (typed : TypedValue)
    (room : state.Room 3) :
    Ends (e.store typed) state ((path.store? state.heap typed.value state.current).map ((), ·)) := by
  rw [Path.store?, Option.map_bind]
  cases denotes with
  | single only => exact ends_store only typed ⟨room.config, by have := room.depth; omega⟩
  | @chain first last between head final middle span ofHead ofMiddle ofFinal =>
    refine ends_inNode room fun room => ?_
    have tail : (Expr.nodes (middle ++ [final]) : List (Node Unit)) =
        middle.map Expr.node ++ [final.node] := by simp
    have reading : state.enter.config.correctsWrites = false := by
      rw [room.config]
      rfl
    have whole : (Chain.node (head.node : Node Unit) (Expr.nodes (middle ++ [final])) span).assign typed = (do
        let correct := (← get).config.correctsWrites
        let target ← Chain.read correct head.node (middle.map Expr.node)
        inScope target (positioned correct (final.node : Node Unit).span (final.store typed))) := by
      rw [tail]
      simp only [Chain.node, Chain.atLast, List.getLast?_concat, List.dropLast_concat]
      rfl
    change Ends ((Chain.node (head.node : Node Unit) (Expr.nodes (middle ++ [final])) span).assign typed) _ _
    rw [whole]
    refine ends_get ?_
    rw [reading]
    exact ends_bind (ends_chainRead ofHead ofMiddle room) fun parent counters _ =>
      ends_inScope (ends_positioned (ends_store ofFinal typed ⟨room.config, room.depth⟩))

end

/-! ## Texts of paths -/

namespace Path

/-- The tokens of a step at the front of a path. -/
def Step.kinds : Step → List TokenKind
  | member name false => [.name name]
  | member name true => [.openBracket, .literal (.text name), .closeBracket]
  | item index => [.openBracket, .literal (.int index), .closeBracket]

/-- The tokens of a step behind another one. -/
def Step.linkKinds : Step → List TokenKind
  | member name false => [.dot, .name name]
  | step => step.kinds

/-- The tokens of a path. -/
def kinds (path : Path) : List TokenKind :=
  match path.lead with
  | [] => path.last.kinds
  | first :: between => first.kinds ++ (between.flatMap Step.linkKinds ++ path.last.linkKinds)

/-- Three tokens of which the middle one is a literal form an indexer. -/
private theorem derives_brackets {tokens : List Token} {value : Literal}
    (same : tokens.map Token.kind = [.openBracket, .literal value, .closeBracket]) :
    ∃ inner span, Derives .indexer tokens [.indexer (.literal value inner) span] := by
  obtain ⟨opening, rest, rfl, sameRest⟩ := kinds_cons.mp same
  obtain ⟨inner, rest, rfl, sameLast⟩ := kinds_cons.mp sameRest
  obtain ⟨closing, rfl⟩ := kinds_single.mp sameLast
  exact ⟨inner, _, .brackets opening closing (.plain (.single (.literal value inner)))⟩

private theorem derives_head {step : Step} {tokens : List Token}
    (same : tokens.map Token.kind = step.kinds) : ∃ e, Derives .primary tokens [e] ∧ step.Denotes e := by
  cases step with
  | member name quoted =>
    cases quoted with
    | false =>
      obtain ⟨span, rfl⟩ := kinds_single.mp same
      exact ⟨_, .ofSegment (.property name span false), .name name false span⟩
    | true =>
      obtain ⟨inner, span, derived⟩ := derives_brackets same
      exact ⟨_, .ofIndexer derived, .quoted name inner span⟩
  | item index =>
    obtain ⟨inner, span, derived⟩ := derives_brackets same
    exact ⟨_, .ofIndexer derived, .item index inner span⟩

private theorem derives_link {step : Step} {tokens rest : List Token} {es : List Expr}
    (same : tokens.map Token.kind = step.linkKinds) (others : Derives .links rest es) :
    ∃ e, Derives .links (tokens ++ rest) (e :: es) ∧ step.Denotes e := by
  cases step with
  | member name quoted =>
    cases quoted with
    | false =>
      obtain ⟨point, rest', rfl, sameRest⟩ := kinds_cons.mp same
      obtain ⟨span, rfl⟩ := kinds_single.mp sameRest
      exact ⟨_, .dotLink point (.property name span true) others, .name name true span⟩
    | true =>
      obtain ⟨inner, span, derived⟩ := derives_brackets same
      exact ⟨_, .indexLink derived others, .quoted name inner span⟩
  | item index =>
    obtain ⟨inner, span, derived⟩ := derives_brackets same
    exact ⟨_, .indexLink derived others, .item index inner span⟩

private theorem derives_links {steps : List Step} {tokens rest : List Token} {others : List Expr}
    (same : tokens.map Token.kind = steps.flatMap Step.linkKinds) (ofRest : Derives .links rest others) :
    ∃ es, Derives .links (tokens ++ rest) (es ++ others) ∧ List.Forall₂ Step.Denotes steps es := by
  induction steps generalizing tokens with
  | nil =>
    obtain rfl := List.map_eq_nil_iff.mp same
    exact ⟨[], ofRest, .nil⟩
  | cons step steps ih =>
    obtain ⟨left, right, rfl, sameLeft, sameRight⟩ := List.map_eq_append_iff.mp same
    obtain ⟨es, derived, denotes⟩ := ih sameRight
    obtain ⟨e, derived, denote⟩ := derives_link sameLeft derived
    rw [← List.append_assoc] at derived
    exact ⟨e :: es, derived, .cons denote denotes⟩

/-- The text of a path reads as the chain of its steps. -/
theorem parse {path : Path} {target : String} (spelled : Lexer.Lexes target.toList path.kinds)
    (short : Text.bytes target.toList ≤ Span.offsetLimit) :
    ∃ e, Expr.parse target = .ok e ∧ path.Denotes e := by
  obtain ⟨tokens, read, same⟩ := Lexer.scan_of_lexes spelled 0 (by omega)
  obtain ⟨lead, last⟩ := path
  cases lead with
  | nil =>
    obtain ⟨e, derived, denotes⟩ := derives_head same
    exact ⟨e, Expr.parse_of_derives read short (.plain (.single derived)), .single denotes⟩
  | cons first between =>
    obtain ⟨left, rest, rfl, sameLeft, sameRest⟩ := List.map_eq_append_iff.mp same
    obtain ⟨middle, right, rfl, sameMiddle, sameRight⟩ := List.map_eq_append_iff.mp sameRest
    obtain ⟨head, ofHead, denotesHead⟩ := derives_head sameLeft
    obtain ⟨final, ofFinal, denotesFinal⟩ := derives_link sameRight .noLink
    obtain ⟨es, ofTail, denotesMiddle⟩ := derives_links sameMiddle ofFinal
    rw [List.append_nil] at ofTail
    exact ⟨_, Expr.parse_of_derives read short (.plain (.compound ofHead ofTail)),
      .chain _ denotesHead denotesMiddle denotesFinal⟩

end Path

/-! ## Documents that are updated -/

/-- The text of a literal reads as that literal. -/
theorem Expr.parse_literal {value : Literal} {operand : String}
    (spelled : Lexer.Lexes operand.toList [.literal value])
    (short : Text.bytes operand.toList ≤ Span.offsetLimit) :
    ∃ span, Expr.parse operand = .ok (.literal value span) := by
  obtain ⟨tokens, read, same⟩ := Lexer.scan_of_lexes spelled 0 (by omega)
  obtain ⟨span, rfl⟩ := kinds_single.mp same
  exact ⟨span, Expr.parse_of_derives read short (.plain (.single (.literal value span)))⟩

namespace Command

private theorem room_start (document : Json) (counters : Counters) {levels : Nat} (few : levels ≤ 512) :
    State.Room levels { start document with counters := counters } :=
  ⟨rfl, by simpa [start, State.initial] using few⟩

/-- What `set` does with a literal, once the texts are read. -/
private theorem set_of_parse {target operand root : String} {e : Expr} {value : Literal} {span : Span}
    {document : Json} (parsed : Expr.parse target = .ok e)
    (parsedOperand : Expr.parse operand = .ok (.literal value span))
    (given : Json.read? root = some document) {stored : Option Heap}
    (ends : ∀ counters, Ends (e.store value.typed) { start document with counters := counters }
      (stored.map ((), ·))) :
    match stored with
    | some later => ∃ counters, set target operand root =
        .ok ⟨(later.document (start document).root.value).write, some counters⟩
    | none => ∃ error, set target operand root = .error ⟨target, .failed (.eval error)⟩ := by
  obtain ⟨counters, evaluated⟩ := ends_literal value span (room_start document .zero (by decide))
  change (Expr.literal value span).evaluate.outcome (start document) =
    (.ok value.typed, { start document with counters := counters }) at evaluated
  have ends := ends counters
  rw [set_of_read parsed parsedOperand given]
  cases stored with
  | none =>
    obtain ⟨error, final, run⟩ := ends
    refine ⟨error, ?_⟩
    simp only [update, Command.run, evaluated, run, bind, Except.bind]
    rfl
  | some later =>
    obtain ⟨counters', run⟩ := ends
    refine ⟨counters', ?_⟩
    simp only [update, Command.run, evaluated, run, bind, Except.bind]
    rfl

/-- To store a literal at a path in a document is to put it there: that succeeds exactly if the path leads
to a place in the document, and shows the document with that place changed, so that the literal is found at the
end of the path and what other paths lead to is as it was. Otherwise the error is one of the target. -/
theorem set_path {path : Path} {value : Literal} {target operand root : String} {document : Json}
    (spelled : Lexer.Lexes target.toList path.kinds)
    (short : Text.bytes target.toList ≤ Span.offsetLimit)
    (spelledOperand : Lexer.Lexes operand.toList [.literal value])
    (shortOperand : Text.bytes operand.toList ≤ Span.offsetLimit)
    (given : Json.read? root = some document) (finite : document.IsFinite) :
    ((∃ output, set target operand root = .ok output) ↔ path.Leads document) ∧
    (∀ output, set target operand root = .ok output →
      ∃ updated, path.put? value.document document = some updated ∧ output.text = updated.write ∧
        Path.at? path.steps updated = some value.document ∧
        ∀ others, Path.Apart path.steps others → Path.at? others updated = Path.at? others document) ∧
    (∀ report, set target operand root = .error report →
      ∃ error, report = ⟨target, .failed (.eval error)⟩) := by
  obtain ⟨e, parsed, denotes⟩ := Path.parse spelled short
  obtain ⟨span, parsedOperand⟩ := Expr.parse_literal spelledOperand shortOperand
  obtain ⟨taken, gains⟩ := (Json.ordered_of_read? given).loads finite Heap.empty
  have inside := List.forall_mem_singleton.mp gains.inside
  have shown : Shows (start document).heap (start document).root.value document taken := inside
  have distinct : taken.Nodup := by simpa using gains.distinct
  have puts := shown.store_path distinct value.flat?_typed path
  have leads := Path.put?_iff_leads path value.document document
  have ends (counters : Counters) : Ends (e.store value.typed) { start document with counters := counters }
      ((path.store? (start document).heap value.typed.value (start document).root).map ((), ·)) :=
    ends_path denotes value.typed (room_start document counters (by decide))
  cases stored : path.store? (start document).heap value.typed.value (start document).root with
  | some later =>
    rw [stored, Option.map_some] at puts
    rw [stored] at ends
    obtain ⟨counters, done⟩ := set_of_parse parsed parsedOperand given ends
    have there : path.Leads document := leads.mp (by rw [← puts]; rfl)
    refine ⟨iff_of_true ⟨_, done⟩ there, fun output same => ?_, fun report same => ?_⟩
    · obtain rfl := Except.ok.inj (done.symm.trans same)
      exact ⟨_, puts.symm, rfl, Path.at?_put? puts.symm, fun _ apart => Path.at?_put?_apart apart puts.symm⟩
    · cases done.symm.trans same
  | none =>
    rw [stored, Option.map_none] at puts
    rw [stored] at ends
    obtain ⟨error, done⟩ := set_of_parse parsed parsedOperand given ends
    have nowhere : ¬ path.Leads document := fun there => by
      rw [← leads, ← puts] at there
      cases there
    refine ⟨iff_of_false ?_ nowhere, fun output same => ?_, fun report same => ?_⟩
    · rintro ⟨output, same⟩
      cases done.symm.trans same
    · cases done.symm.trans same
    · exact ⟨error, Except.error.inj (same.symm.trans done)⟩

/-- The second item of a list in an object: `a['b'][1]`. -/
private def secondItem : Path := ⟨[.member "a" false, .member "b" true], .item 1⟩

/-- An object with such a list. -/
private def withList : Json := .object [("a", .object [("b", .array [.int 1, .int 2])]), ("k", .bool true)]

theorem set_path_secondItem :
    Lexer.Lexes "a['b'][1]".toList secondItem.kinds ∧
    Lexer.Lexes "'x'".toList [.literal (.text "x")] ∧
    Json.read? "\x7b\"a\": \x7b\"b\": [1, 2]\x7d, \"k\": true\x7d" = some withList ∧ withList.IsFinite ∧
    ∃ output, set "a['b'][1]" "'x'" "\x7b\"a\": \x7b\"b\": [1, 2]\x7d, \"k\": true\x7d" = .ok output ∧
      output.text = "\x7b\"a\":\x7b\"b\":[1,\"x\"]\x7d,\"k\":true\x7d" := by
  have tokens : Lexer.scan 0 "a['b'][1]".toList = .ok [⟨.name "a", ⟨0, 1⟩⟩, ⟨.openBracket, ⟨1, 2⟩⟩,
      ⟨.literal (.text "b"), ⟨2, 5⟩⟩, ⟨.closeBracket, ⟨5, 6⟩⟩, ⟨.openBracket, ⟨6, 7⟩⟩,
      ⟨.literal (.int 1), ⟨7, 8⟩⟩, ⟨.closeBracket, ⟨8, 9⟩⟩] := by cbv
  have token : Lexer.scan 0 "'x'".toList = .ok [⟨.literal (.text "x"), ⟨0, 3⟩⟩] := by cbv
  have spelled : Lexer.Lexes "a['b'][1]".toList secondItem.kinds := Lexer.lexes_of_scan tokens
  have spelledOperand : Lexer.Lexes "'x'".toList [.literal (.text "x")] := Lexer.lexes_of_scan token
  have given : Json.read? "\x7b\"a\": \x7b\"b\": [1, 2]\x7d, \"k\": true\x7d" = some withList := by cbv
  have finite : withList.IsFinite := fun x member => absurd member List.not_mem_nil
  have leads : secondItem.Leads withList := ⟨.array [.int 1, .int 2], rfl, by decide, by decide⟩
  obtain ⟨succeeds, shows, _⟩ := set_path spelled (by decide) spelledOperand (by decide) given finite
  obtain ⟨output, done⟩ := succeeds.mpr leads
  obtain ⟨updated, put, text, -⟩ := shows output done
  have changed : secondItem.put? (.text "x") withList =
      some (.object [("a", .object [("b", .array [.int 1, .text "x"])]), ("k", .bool true)]) := by rfl
  obtain rfl := Option.some.inj (changed.symm.trans put)
  refine ⟨spelled, spelledOperand, given, finite, output, done, text.trans ?_⟩
  rfl

end Command

end DotChain
