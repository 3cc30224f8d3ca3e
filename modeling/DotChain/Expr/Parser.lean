import DotChain.Expr.Basic
import DotChain.Token.Lexer

/-!
# Reading expressions

Every step reads one phrase from the front of a list of tokens and leaves a shorter list:

* an expression is a chain, perhaps followed by `=` and an expression;
* a chain is a primary, followed by any number of dotted segments and indexers;
* a primary is a literal, an expression in parentheses, a variable, a segment or an indexer;
* a segment is a name, perhaps followed by arguments in parentheses.

Parentheses leave no node, and a chain of one segment is that segment.
-/

namespace DotChain.Parser

/-- What is read from a list of tokens and the shorter list that remains, or why nothing is. -/
abbrev Step (input : List Token) (α : Type) :=
  Except SyntaxError (α × { rest : List Token // rest.length < input.length })

/-- The error at the first of the remaining tokens, or at the end of the source. -/
def unexpected (eof : Nat) (expected : Expectation) : List Token → SyntaxError
  | [] => .unexpectedEnd expected (.point eof)
  | found :: _ => .unexpectedToken expected found

/-- A chain of a first segment and the others, or the first segment if there are none. -/
def ofChain (head : Expr) (tail : List Expr) : Expr :=
  match tail.getLast? with
  | none => head
  | some last => .chain head tail (head.span.merge last.span)

/-- Reads a name. -/
def name (eof : Nat) (expected : Expectation) (input : List Token) : Step input (String × Span) :=
  match input with
  | ⟨.name text, span⟩ :: rest => .ok ((text, span), ⟨rest, by simp⟩)
  | rest => .error (unexpected eof expected rest)

/-- Takes a given token from the front, if it stands there. -/
def take? (kind : TokenKind) (input : List Token) :
    Option (Span × { rest : List Token // rest.length < input.length }) :=
  match input with
  | [] => none
  | token :: rest => if token.kind = kind then some (token.span, ⟨rest, by simp⟩) else none

/-- Reads one given token. -/
def mark (eof : Nat) (kind : TokenKind) (expected : Expectation) (input : List Token) :
    Step input Span :=
  match take? kind input with
  | some taken => .ok taken
  | none => .error (unexpected eof expected input)

mutual

/-- Reads an expression. -/
def expression (eof : Nat) (input : List Token) : Step input Expr :=
  match chain eof input with
  | .error e => .error e
  | .ok (target, ⟨rest, _⟩) =>
    match take? .equals rest with
    | none => .ok (target, ⟨rest, by assumption⟩)
    | some (_, ⟨rest, _⟩) =>
      match expression eof rest with
      | .error e => .error e
      | .ok (value, ⟨rest, _⟩) =>
        .ok (.assign target value (target.span.merge value.span), ⟨rest, by omega⟩)
termination_by (input.length, 4)
decreasing_by all_goals omega

/-- Reads a chain. -/
def chain (eof : Nat) (input : List Token) : Step input Expr :=
  match primary eof input with
  | .error e => .error e
  | .ok (head, ⟨rest, _⟩) =>
    match segments eof rest with
    | .error e => .error e
    | .ok (tail, ⟨rest, _⟩) => .ok (ofChain head tail, ⟨rest, by omega⟩)
termination_by (input.length, 3)
decreasing_by all_goals omega

/-- Reads the dotted segments and indexers that continue a chain. -/
def segments (eof : Nat) (input : List Token) :
    Except SyntaxError (List Expr × { rest : List Token // rest.length ≤ input.length }) :=
  match input with
  | ⟨.dot, _⟩ :: rest =>
    match name eof .memberName rest with
    | .error e => .error e
    | .ok ((text, span), ⟨rest, _⟩) =>
      match segment eof text span true rest with
      | .error e => .error e
      | .ok (first, ⟨rest, _⟩) =>
        match segments eof rest with
        | .error e => .error e
        | .ok (others, ⟨rest, _⟩) => .ok (first :: others, ⟨rest, by simp only [List.length_cons] at *; omega⟩)
  | ⟨.openBracket, span⟩ :: rest =>
    match indexer eof span rest with
    | .error e => .error e
    | .ok (first, ⟨rest, _⟩) =>
      match segments eof rest with
      | .error e => .error e
      | .ok (others, ⟨rest, _⟩) => .ok (first :: others, ⟨rest, by simp only [List.length_cons] at *; omega⟩)
  | rest => .ok ([], ⟨rest, Nat.le_refl _⟩)
termination_by (input.length, 3)
decreasing_by all_goals simp only [List.length_cons] at *; omega

/-- Reads a primary. -/
def primary (eof : Nat) (input : List Token) : Step input Expr :=
  match input with
  | ⟨.literal value, span⟩ :: rest => .ok (.literal value span, ⟨rest, by simp⟩)
  | ⟨.openParen, _⟩ :: rest =>
    match expression eof rest with
    | .error e => .error e
    | .ok (inner, ⟨rest, _⟩) =>
      match mark eof .closeParen .closingParen rest with
      | .error e => .error e
      | .ok (_, ⟨rest, _⟩) => .ok (inner, ⟨rest, by simp only [List.length_cons] at *; omega⟩)
  | ⟨.hash, opening⟩ :: rest =>
    match name eof .variableName rest with
    | .error e => .error e
    | .ok ((text, span), ⟨rest, _⟩) =>
      .ok (.reference text (opening.merge span), ⟨rest, by simp only [List.length_cons] at *; omega⟩)
  | ⟨.name text, span⟩ :: rest =>
    match segment eof text span false rest with
    | .error e => .error e
    | .ok (e, ⟨rest, _⟩) => .ok (e, ⟨rest, by simp only [List.length_cons] at *; omega⟩)
  | ⟨.openBracket, span⟩ :: rest =>
    match indexer eof span rest with
    | .error e => .error e
    | .ok (e, ⟨rest, _⟩) => .ok (e, ⟨rest, by simp only [List.length_cons] at *; omega⟩)
  | rest => .error (unexpected eof .expression rest)
termination_by (input.length, 2)
decreasing_by all_goals simp only [List.length_cons] at *; omega

/-- Reads what follows the name of a segment: arguments make it a method. -/
def segment (eof : Nat) (text : String) (span : Span) (dotted : Bool) (input : List Token) :
    Except SyntaxError (Expr × { rest : List Token // rest.length ≤ input.length }) :=
  match take? .openParen input with
  | none => .ok (.property text dotted span, ⟨input, Nat.le_refl _⟩)
  | some (_, ⟨rest, _⟩) =>
    match take? .closeParen rest with
    | some (close, ⟨rest, _⟩) => .ok (.method text [] dotted (span.merge close), ⟨rest, by omega⟩)
    | none =>
      match arguments eof rest with
      | .error e => .error e
      | .ok (args, ⟨rest, _⟩) =>
        match mark eof .closeParen .commaOrParen rest with
        | .error e => .error e
        | .ok (close, ⟨rest, _⟩) =>
          .ok (.method text args dotted (span.merge close), ⟨rest, by omega⟩)
termination_by (input.length, 1)
decreasing_by all_goals omega

/-- Reads one or more expressions, separated by commas. -/
def arguments (eof : Nat) (input : List Token) : Step input (List Expr) :=
  match expression eof input with
  | .error e => .error e
  | .ok (first, ⟨rest, _⟩) =>
    match take? .comma rest with
    | none => .ok ([first], ⟨rest, by assumption⟩)
    | some (_, ⟨rest, _⟩) =>
      match arguments eof rest with
      | .error e => .error e
      | .ok (others, ⟨rest, _⟩) => .ok (first :: others, ⟨rest, by omega⟩)
termination_by (input.length, 5)
decreasing_by all_goals omega

/-- Reads what follows the opening bracket of an indexer. -/
def indexer (eof : Nat) (opening : Span) (input : List Token) : Step input Expr :=
  match expression eof input with
  | .error e => .error e
  | .ok (index, ⟨rest, _⟩) =>
    match mark eof .closeBracket .closingBracket rest with
    | .error e => .error e
    | .ok (close, ⟨rest, _⟩) => .ok (.indexer index (opening.merge close), ⟨rest, by omega⟩)
termination_by (input.length, 5)
decreasing_by all_goals omega

end

/-- The expression that a whole list of tokens forms, where the source ends at `eof`. -/
def complete (eof : Nat) (input : List Token) : Except SyntaxError Expr :=
  match expression eof input with
  | .error e => .error e
  | .ok (e, ⟨[], _⟩) => .ok e
  | .ok (_, ⟨found :: _, _⟩) => .error (.unexpectedToken .endOfExpression found)

end Parser

/-- The expression of a source text. A text that cannot be cut into tokens is refused before any
phrase is looked for. -/
def Expr.parse (source : String) : Except SyntaxError Expr := do
  let tokens ← Lexer.tokens source
  let length := Text.bytes source.toList
  match Span.ofRange length length with
  | .error cause => .error (.sourceTooLarge cause)
  | .ok eof => Parser.complete eof.stop tokens

/-- A source text together with its expression. -/
structure Phrase where
  source : String
  tree : Expr
deriving Inhabited

/-- Reads a source text and keeps it. -/
def Phrase.read (source : String) : Except SyntaxError Phrase :=
  (Expr.parse source).map fun tree => ⟨source, tree⟩

end DotChain
