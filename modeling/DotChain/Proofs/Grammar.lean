import DotChain.Expr.Parser
import DotChain.Expr.Shape

/-!
# The grammar of expressions

The grammar says which lists of tokens form an expression and which tree each of them has. Main
statement: `complete_iff_derives`, a list of tokens is read as a tree exactly if the grammar derives
the list with that tree, so no list has two trees. Reading follows the grammar (`*_derives`), and what
the grammar derives is read as far as it goes (`reads_of_derives`), because no phrase can be
continued by what may follow it (`Grammar.Ends`).
-/

namespace DotChain

namespace Grammar

/-- The kinds of phrases. -/
inductive Nonterminal where
  | expression
  | chain
  /-- What follows the primary of a chain. -/
  | links
  | primary
  /-- A segment, which stands after a point or not. -/
  | segment (dotted : Bool)
  | reference
  | indexer
  | arguments

/-- A list of tokens forms a phrase of a kind, and the phrase has the given trees: several if it lists
links or arguments, else one. -/
inductive Derives : Nonterminal → List Token → List Expr → Prop where
  /-- `expression := chain` -/
  | plain {tokens : List Token} {e : Expr} (target : Derives .chain tokens [e]) :
    Derives .expression tokens [e]
  /-- `expression := chain '=' expression` -/
  | assignment {left right : List Token} {target value : Expr} (sign : Span)
    (ofTarget : Derives .chain left [target]) (ofValue : Derives .expression right [value]) :
    Derives .expression (left ++ ⟨.equals, sign⟩ :: right)
      [.assign target value (target.span.merge value.span)]
  /-- `chain := primary`; one element is that element. -/
  | single {tokens : List Token} {e : Expr} (head : Derives .primary tokens [e]) :
    Derives .chain tokens [e]
  /-- `chain := primary link+` -/
  | compound {left right : List Token} {head last : Expr} {middle : List Expr}
    (ofHead : Derives .primary left [head]) (ofTail : Derives .links right (middle ++ [last])) :
    Derives .chain (left ++ right) [.chain head (middle ++ [last]) (head.span.merge last.span)]
  | noLink : Derives .links [] []
  /-- `link := '.' segment` -/
  | dotLink {left right : List Token} {first : Expr} {others : List Expr} (point : Span)
    (ofFirst : Derives (.segment true) left [first]) (ofOthers : Derives .links right others) :
    Derives .links (⟨.dot, point⟩ :: (left ++ right)) (first :: others)
  /-- `link := indexer` -/
  | indexLink {left right : List Token} {first : Expr} {others : List Expr}
    (ofFirst : Derives .indexer left [first]) (ofOthers : Derives .links right others) :
    Derives .links (left ++ right) (first :: others)
  /-- `primary := literal` -/
  | literal (value : Literal) (span : Span) :
    Derives .primary [⟨.literal value, span⟩] [.literal value span]
  /-- `primary := '(' expression ')'`; parentheses leave no node. -/
  | parens {tokens : List Token} {e : Expr} (opening closing : Span)
    (inner : Derives .expression tokens [e]) :
    Derives .primary (⟨.openParen, opening⟩ :: (tokens ++ [⟨.closeParen, closing⟩])) [e]
  /-- `primary := reference` -/
  | ofReference {tokens : List Token} {e : Expr} (inner : Derives .reference tokens [e]) :
    Derives .primary tokens [e]
  /-- `primary := segment` -/
  | ofSegment {tokens : List Token} {e : Expr} (inner : Derives (.segment false) tokens [e]) :
    Derives .primary tokens [e]
  /-- `primary := indexer` -/
  | ofIndexer {tokens : List Token} {e : Expr} (inner : Derives .indexer tokens [e]) :
    Derives .primary tokens [e]
  /-- `segment := name` -/
  | property (name : String) (span : Span) (dotted : Bool) :
    Derives (.segment dotted) [⟨.name name, span⟩] [.property name dotted span]
  /-- `segment := name '(' ')'` -/
  | emptyCall (name : String) (span opening closing : Span) (dotted : Bool) :
    Derives (.segment dotted)
      [⟨.name name, span⟩, ⟨.openParen, opening⟩, ⟨.closeParen, closing⟩]
      [.method name [] dotted (span.merge closing)]
  /-- `segment := name '(' arguments ')'` -/
  | call {tokens : List Token} {args : List Expr} (name : String) (span opening closing : Span)
    (dotted : Bool) (ofArgs : Derives .arguments tokens args) :
    Derives (.segment dotted)
      (⟨.name name, span⟩ :: ⟨.openParen, opening⟩ :: (tokens ++ [⟨.closeParen, closing⟩]))
      [.method name args dotted (span.merge closing)]
  /-- `reference := '#' name` -/
  | hash (name : String) (mark span : Span) :
    Derives .reference [⟨.hash, mark⟩, ⟨.name name, span⟩] [.reference name (mark.merge span)]
  /-- `indexer := '[' expression ']'` -/
  | brackets {tokens : List Token} {index : Expr} (opening closing : Span)
    (inner : Derives .expression tokens [index]) :
    Derives .indexer (⟨.openBracket, opening⟩ :: (tokens ++ [⟨.closeBracket, closing⟩]))
      [.indexer index (opening.merge closing)]
  /-- `arguments := expression` -/
  | oneArgument {tokens : List Token} {e : Expr} (only : Derives .expression tokens [e]) :
    Derives .arguments tokens [e]
  /-- `arguments := expression ',' arguments` -/
  | moreArguments {left right : List Token} {first : Expr} {others : List Expr} (comma : Span)
    (ofFirst : Derives .expression left [first]) (ofOthers : Derives .arguments right others) :
    Derives .arguments (left ++ ⟨.comma, comma⟩ :: right) (first :: others)

end Grammar

open Grammar

/-! ## What the reading functions do -/

namespace Parser

/-- Reading succeeds with a result and leaves a rest. -/
def Gives {α : Type} {fits : List Token → Prop}
    (read : Except SyntaxError (α × { rest : List Token // fits rest })) (result : α)
    (rest : List Token) : Prop :=
  ∃ fit, read = .ok (result, ⟨rest, fit⟩)

/-- A list of tokens does not begin with a token of a kind. -/
def Lacks (kind : TokenKind) (tokens : List Token) : Prop :=
  tokens.head?.map (·.kind) ≠ some kind

section
variable {α : Type} {fits : List Token → Prop} {eof : Nat} {input rest : List Token}

@[simp] theorem gives_ok {result value : α} {left : { rest : List Token // fits rest }} :
    Gives (.ok (value, left)) result rest ↔ result = value ∧ rest = left.1 := by
  constructor
  · rintro ⟨fit, same⟩
    obtain ⟨rfl, rfl⟩ := Prod.mk.inj (Except.ok.inj same)
    exact ⟨rfl, rfl⟩
  · rintro ⟨rfl, rfl⟩
    exact ⟨left.2, rfl⟩

@[simp] theorem not_gives_error {error : SyntaxError} {result : α} :
    ¬ Gives (.error error : Except SyntaxError (α × { rest : List Token // fits rest })) result rest := by
  rintro ⟨fit, same⟩
  cases same

theorem gives_of_eq {read : Except SyntaxError (α × { rest : List Token // fits rest })}
    {result : α} {fit : fits rest} (run : read = .ok (result, ⟨rest, fit⟩)) :
    Gives read result rest :=
  ⟨fit, run⟩

@[simp] theorem lacks_cons {kind : TokenKind} {token : Token} :
    Lacks kind (token :: rest) ↔ token.kind ≠ kind := by
  simp [Lacks]

@[simp] theorem lacks_nil {kind : TokenKind} : Lacks kind [] := by
  simp [Lacks]

theorem take?_spec (kind : TokenKind) (input : List Token) :
    (take? kind input = none ∧ Lacks kind input) ∨
    ∃ span rest fit, input = ⟨kind, span⟩ :: rest ∧ take? kind input = some (span, ⟨rest, fit⟩) := by
  cases input with
  | nil => exact .inl ⟨rfl, lacks_nil⟩
  | cons token rest =>
    by_cases same : token.kind = kind
    · subst same
      exact .inr ⟨token.span, rest, by simp, rfl, by simp [take?]⟩
    · exact .inl ⟨by simp [take?, same], lacks_cons.mpr same⟩

theorem gives_mark {kind : TokenKind} {expected : Expectation} {span : Span} :
    Gives (mark eof kind expected input) span rest ↔ input = ⟨kind, span⟩ :: rest := by
  rcases take?_spec kind input with ⟨missing, lacks⟩ | ⟨at_, left, fit, rfl, taken⟩
  · rw [mark, missing]
    simp only [not_gives_error, false_iff]
    rintro rfl
    exact lacks_cons.mp lacks rfl
  · rw [mark, taken]
    simp only [gives_ok, List.cons.injEq, Token.mk.injEq, true_and]
    exact and_congr eq_comm eq_comm

theorem gives_name {expected : Expectation} {text : String} {span : Span} :
    Gives (name eof expected input) (text, span) rest ↔ input = ⟨.name text, span⟩ :: rest := by
  unfold name
  split
  · simp [eq_comm, and_assoc]
  · next other =>
    simp only [not_gives_error, false_iff]
    rintro rfl
    exact other _ _ _ rfl

theorem take?_cons {kind : TokenKind} {span : Span} :
    take? kind (⟨kind, span⟩ :: rest) = some (span, ⟨rest, Nat.lt_succ_self _⟩) := by
  simp [take?]

theorem take?_of_lacks {kind : TokenKind} (lacks : Lacks kind input) : take? kind input = none := by
  rcases take?_spec kind input with ⟨missing, _⟩ | ⟨span, after, fit, rfl, _⟩
  · exact missing
  · exact absurd rfl (lacks_cons.mp lacks)

end

/-! ## What is read is derived -/

private theorem links_nil {tokens : List Token} (derived : Derives .links tokens []) : tokens = [] := by
  cases derived
  rfl

/-- A primary and any number of links form a chain. -/
theorem derives_ofChain {left right : List Token} {head : Expr} {tail : List Expr}
    (ofHead : Derives .primary left [head]) (ofTail : Derives .links right tail) :
    Derives .chain (left ++ right) [ofChain head tail] := by
  rcases List.eq_nil_or_concat tail with rfl | ⟨middle, last, rfl⟩
  · obtain rfl := links_nil ofTail
    rw [List.append_nil]
    exact .single ofHead
  · have whole : ofChain head (middle ++ [last]) =
        .chain head (middle ++ [last]) (head.span.merge last.span) := by
      simp [ofChain]
    rw [List.concat_eq_append] at ofTail ⊢
    rw [whole]
    exact .compound ofHead ofTail

mutual

theorem expression_derives {eof : Nat} {input rest : List Token} {e : Expr}
    (read : Gives (expression eof input) e rest) :
    ∃ used, input = used ++ rest ∧ Derives .expression used [e] := by
  rw [expression] at read
  split at read
  · exact absurd read not_gives_error
  · next target middle shorter first =>
    obtain ⟨left, front, ofTarget⟩ := chain_derives (gives_of_eq first)
    rcases take?_spec .equals middle with ⟨missing, lacks⟩ | ⟨sign, after, shorter', same, taken⟩
    · simp only [missing, gives_ok] at read
      obtain ⟨rfl, rfl⟩ := read
      exact ⟨left, front, .plain ofTarget⟩
    · simp only [taken] at read
      split at read
      · exact absurd read not_gives_error
      · next value last fit second =>
        obtain ⟨rfl, rfl⟩ := gives_ok.mp read
        obtain ⟨right, back, ofValue⟩ := expression_derives (gives_of_eq second)
        refine ⟨left ++ ⟨.equals, sign⟩ :: right, ?_, .assignment sign ofTarget ofValue⟩
        rw [front, same, back, List.append_assoc, List.cons_append]
termination_by (input.length, 4)
decreasing_by all_goals omega

theorem chain_derives {eof : Nat} {input rest : List Token} {e : Expr}
    (read : Gives (chain eof input) e rest) :
    ∃ used, input = used ++ rest ∧ Derives .chain used [e] := by
  rw [chain] at read
  split at read
  · exact absurd read not_gives_error
  · next head middle shorter first =>
    obtain ⟨left, front, ofHead⟩ := primary_derives (gives_of_eq first)
    split at read
    · exact absurd read not_gives_error
    · next tail last fit second =>
      obtain ⟨rfl, rfl⟩ := gives_ok.mp read
      obtain ⟨right, back, ofTail⟩ := segments_derives (gives_of_eq second)
      refine ⟨left ++ right, ?_, derives_ofChain ofHead ofTail⟩
      rw [front, back, List.append_assoc]
termination_by (input.length, 3)
decreasing_by all_goals omega

theorem segments_derives {eof : Nat} {input rest : List Token} {es : List Expr}
    (read : Gives (segments eof input) es rest) :
    ∃ used, input = used ++ rest ∧ Derives .links used es := by
  cases form : input with
  | nil =>
    rw [form] at read
    rw [segments.eq_def, gives_ok] at read
    obtain ⟨rfl, rfl⟩ := read
    exact ⟨[], rfl, .noLink⟩
  | cons token after =>
    obtain ⟨kind, span⟩ := token
    rw [form] at read
    cases kind with
    | dot =>
      rw [segments] at read
      split at read
      · exact absurd read not_gives_error
      · next text place middle shorter named =>
        have front := gives_name.mp (gives_of_eq named)
        split at read
        · exact absurd read not_gives_error
        · next first later fit ofFirst =>
          split at read
          · exact absurd read not_gives_error
          · next others last fit' ofOthers =>
            obtain ⟨rfl, rfl⟩ := gives_ok.mp read
            obtain ⟨left, split, derived⟩ := segment_derives (gives_of_eq ofFirst)
            obtain ⟨right, back, derived'⟩ := segments_derives (gives_of_eq ofOthers)
            refine ⟨⟨.dot, span⟩ :: ((⟨.name text, place⟩ :: left) ++ right), ?_,
              .dotLink span derived derived'⟩
            simp [front, split, back]
    | openBracket =>
      rw [segments] at read
      split at read
      · exact absurd read not_gives_error
      · next first middle shorter ofFirst =>
        split at read
        · exact absurd read not_gives_error
        · next others last fit ofOthers =>
          obtain ⟨rfl, rfl⟩ := gives_ok.mp read
          obtain ⟨left, front, derived⟩ := indexer_derives (gives_of_eq ofFirst)
          obtain ⟨right, back, derived'⟩ := segments_derives (gives_of_eq ofOthers)
          refine ⟨(⟨.openBracket, span⟩ :: left) ++ right, ?_, .indexLink derived derived'⟩
          simp [front, back]
    | _ =>
      rw [segments.eq_def, gives_ok] at read
      obtain ⟨rfl, rfl⟩ := read
      exact ⟨[], rfl, .noLink⟩
termination_by (input.length, 3)
decreasing_by
  all_goals
    have := congrArg List.length form
    simp only [List.length_cons] at *
    omega

theorem primary_derives {eof : Nat} {input rest : List Token} {e : Expr}
    (read : Gives (primary eof input) e rest) :
    ∃ used, input = used ++ rest ∧ Derives .primary used [e] := by
  cases form : input with
  | nil =>
    rw [form] at read
    rw [primary.eq_def] at read
    exact absurd read not_gives_error
  | cons token after =>
    obtain ⟨kind, span⟩ := token
    rw [form] at read
    cases kind with
    | literal value =>
      rw [primary, gives_ok] at read
      obtain ⟨rfl, rfl⟩ := read
      exact ⟨[⟨.literal value, span⟩], rfl, .literal value span⟩
    | openParen =>
      rw [primary] at read
      split at read
      · exact absurd read not_gives_error
      · next inner middle shorter ofInner =>
        split at read
        · exact absurd read not_gives_error
        · next closing last fit marked =>
          obtain ⟨rfl, rfl⟩ := gives_ok.mp read
          obtain ⟨used, front, derived⟩ := expression_derives (gives_of_eq ofInner)
          have same := gives_mark.mp (gives_of_eq marked)
          refine ⟨⟨.openParen, span⟩ :: (used ++ [⟨.closeParen, closing⟩]), ?_,
            .parens span closing derived⟩
          simp [front, same]
    | hash =>
      rw [primary] at read
      split at read
      · exact absurd read not_gives_error
      · next text place middle shorter named =>
        obtain ⟨rfl, rfl⟩ := gives_ok.mp read
        have front := gives_name.mp (gives_of_eq named)
        refine ⟨[⟨.hash, span⟩, ⟨.name text, place⟩], ?_, .ofReference (.hash text span place)⟩
        rw [front]
        rfl
    | name text =>
      rw [primary] at read
      split at read
      · exact absurd read not_gives_error
      · next inner middle fit ofInner =>
        obtain ⟨rfl, rfl⟩ := gives_ok.mp read
        obtain ⟨used, front, derived⟩ := segment_derives (gives_of_eq ofInner)
        exact ⟨⟨.name text, span⟩ :: used, by rw [front]; rfl, .ofSegment derived⟩
    | openBracket =>
      rw [primary] at read
      split at read
      · exact absurd read not_gives_error
      · next inner middle fit ofInner =>
        obtain ⟨rfl, rfl⟩ := gives_ok.mp read
        obtain ⟨used, front, derived⟩ := indexer_derives (gives_of_eq ofInner)
        exact ⟨⟨.openBracket, span⟩ :: used, by rw [front]; rfl, .ofIndexer derived⟩
    | _ =>
      rw [primary.eq_def] at read
      exact absurd read not_gives_error
termination_by (input.length, 2)
decreasing_by
  all_goals
    have := congrArg List.length form
    simp only [List.length_cons] at *
    omega

/-- The name of the segment has been read already. -/
theorem segment_derives {eof : Nat} {text : String} {span : Span} {dotted : Bool}
    {input rest : List Token} {e : Expr} (read : Gives (segment eof text span dotted input) e rest) :
    ∃ used, input = used ++ rest ∧ Derives (.segment dotted) (⟨.name text, span⟩ :: used) [e] := by
  rw [segment] at read
  rcases take?_spec .openParen input with ⟨missing, lacks⟩ | ⟨opening, after, shorter, same, taken⟩
  · simp only [missing, gives_ok] at read
    obtain ⟨rfl, rfl⟩ := read
    exact ⟨[], rfl, .property text span dotted⟩
  · simp only [taken] at read
    rcases take?_spec .closeParen after with ⟨missing, lacks⟩ | ⟨closing, last, fit, same', taken'⟩
    · simp only [missing] at read
      split at read
      · exact absurd read not_gives_error
      · next args middle fit ofArgs =>
        split at read
        · exact absurd read not_gives_error
        · next closing last fit' marked =>
          obtain ⟨rfl, rfl⟩ := gives_ok.mp read
          obtain ⟨used, front, derived⟩ := arguments_derives (gives_of_eq ofArgs)
          have marks := gives_mark.mp (gives_of_eq marked)
          refine ⟨⟨.openParen, opening⟩ :: (used ++ [⟨.closeParen, closing⟩]), ?_,
            .call text span opening closing dotted derived⟩
          simp [same, front, marks]
    · simp only [taken', gives_ok] at read
      obtain ⟨rfl, rfl⟩ := read
      exact ⟨[⟨.openParen, opening⟩, ⟨.closeParen, closing⟩], by rw [same, same']; rfl,
        .emptyCall text span opening closing dotted⟩
termination_by (input.length, 1)
decreasing_by all_goals omega

theorem arguments_derives {eof : Nat} {input rest : List Token} {es : List Expr}
    (read : Gives (arguments eof input) es rest) :
    ∃ used, input = used ++ rest ∧ Derives .arguments used es := by
  rw [arguments] at read
  split at read
  · exact absurd read not_gives_error
  · next first middle shorter ofFirst =>
    obtain ⟨left, front, derived⟩ := expression_derives (gives_of_eq ofFirst)
    rcases take?_spec .comma middle with ⟨missing, lacks⟩ | ⟨comma, after, shorter', same, taken⟩
    · simp only [missing, gives_ok] at read
      obtain ⟨rfl, rfl⟩ := read
      exact ⟨left, front, .oneArgument derived⟩
    · simp only [taken] at read
      split at read
      · exact absurd read not_gives_error
      · next others last fit ofOthers =>
        obtain ⟨rfl, rfl⟩ := gives_ok.mp read
        obtain ⟨right, back, derived'⟩ := arguments_derives (gives_of_eq ofOthers)
        refine ⟨left ++ ⟨.comma, comma⟩ :: right, ?_, .moreArguments comma derived derived'⟩
        rw [front, same, back, List.append_assoc, List.cons_append]
termination_by (input.length, 5)
decreasing_by all_goals omega

/-- The opening bracket has been read already. -/
theorem indexer_derives {eof : Nat} {opening : Span} {input rest : List Token} {e : Expr}
    (read : Gives (indexer eof opening input) e rest) :
    ∃ used, input = used ++ rest ∧ Derives .indexer (⟨.openBracket, opening⟩ :: used) [e] := by
  rw [indexer] at read
  split at read
  · exact absurd read not_gives_error
  · next index middle shorter ofIndex =>
    split at read
    · exact absurd read not_gives_error
    · next closing last fit marked =>
      obtain ⟨rfl, rfl⟩ := gives_ok.mp read
      obtain ⟨used, front, derived⟩ := expression_derives (gives_of_eq ofIndex)
      have same := gives_mark.mp (gives_of_eq marked)
      refine ⟨used ++ [⟨.closeBracket, closing⟩], ?_, .brackets opening closing derived⟩
      rw [front, same, List.append_assoc]
      rfl
termination_by (input.length, 5)
decreasing_by all_goals omega

end

/-! ## What is derived is read -/

/-- What may follow a chain: tokens that do not continue it. -/
def EndsChain (rest : List Token) : Prop :=
  Lacks .openParen rest ∧ Lacks .dot rest ∧ Lacks .openBracket rest

/-- What may follow a phrase: tokens that do not continue it. -/
def Ends : Nonterminal → List Token → Prop
  | .primary, rest | .segment _, rest | .reference, rest | .indexer, rest => Lacks .openParen rest
  | .chain, rest | .links, rest => EndsChain rest
  | .expression, rest => EndsChain rest ∧ Lacks .equals rest
  | .arguments, rest => (EndsChain rest ∧ Lacks .equals rest) ∧ Lacks .comma rest

/-- The function for a phrase reads the given trees and leaves a rest. Those for segments and indexers
find their first token read. -/
def Reads (eof : Nat) : Nonterminal → List Token → List Expr → List Token → Prop
  | .expression, input, [e], rest => Gives (expression eof input) e rest
  | .chain, input, [e], rest => Gives (chain eof input) e rest
  | .links, input, es, rest => Gives (segments eof input) es rest
  | .primary, input, [e], rest => Gives (primary eof input) e rest
  | .segment dotted, input, [e], rest => ∃ text span after, input = ⟨.name text, span⟩ :: after ∧
    Gives (segment eof text span dotted after) e rest
  | .reference, input, [e], rest => Gives (primary eof input) e rest
  | .indexer, input, [e], rest => ∃ opening after, input = ⟨.openBracket, opening⟩ :: after ∧
    Gives (indexer eof opening after) e rest
  | .arguments, input, es, rest => Gives (arguments eof input) es rest
  | _, _, _, _ => False

theorem segments_of_lacks (eof : Nat) {rest : List Token} (dot : Lacks .dot rest)
    (bracket : Lacks .openBracket rest) : Gives (segments eof rest) [] rest := by
  rw [segments.eq_def]
  split
  · exact absurd rfl (lacks_cons.mp dot)
  · exact absurd rfl (lacks_cons.mp bracket)
  · exact gives_ok.mpr ⟨rfl, rfl⟩

/-- Links begin with a point or a bracket. -/
private theorem links_lack {tokens rest : List Token} {es : List Expr}
    (derived : Derives .links tokens es) (lacks : Lacks .openParen rest) :
    Lacks .openParen (tokens ++ rest) := by
  cases derived with
  | noLink => exact lacks
  | dotLink point ofFirst ofOthers => exact lacks_cons.mpr (by simp)
  | indexLink ofFirst ofOthers =>
    cases ofFirst
    exact lacks_cons.mpr (by simp)

/-- Every phrase but a list of links has a first token, which is no closing parenthesis. -/
private theorem begins {phrase : Nonterminal} {tokens : List Token} {es : List Expr}
    (derived : Derives phrase tokens es) : phrase ≠ .links →
    ∃ token others, tokens = token :: others ∧ token.kind ≠ .closeParen := by
  induction derived with
  | noLink | dotLink | indexLink => exact fun other => absurd rfl other
  | plain _ ih | single _ ih | ofReference _ ih | ofSegment _ ih | ofIndexer _ ih
  | oneArgument _ ih => exact fun _ => ih (by simp)
  | assignment _ _ _ ih _ | compound _ _ ih _ | moreArguments _ _ _ ih _ =>
    intro _
    obtain ⟨token, others, rfl, other⟩ := ih (by simp)
    exact ⟨token, _, rfl, other⟩
  | literal | parens | property | emptyCall | call | hash | brackets =>
    intro _
    exact ⟨_, _, rfl, by simp⟩

private theorem arguments_lack {tokens rest : List Token} {es : List Expr}
    (derived : Derives .arguments tokens es) : Lacks .closeParen (tokens ++ rest) := by
  obtain ⟨token, others, rfl, other⟩ := begins derived (by simp)
  exact lacks_cons.mpr other

theorem reads_of_derives (eof : Nat) {phrase : Nonterminal} {tokens : List Token} {es : List Expr}
    (derived : Derives phrase tokens es) :
    ∀ rest, Ends phrase rest → Reads eof phrase (tokens ++ rest) es rest := by
  induction derived with
  | @plain tokens e target ih =>
    intro rest ends
    obtain ⟨fit, run⟩ := ih rest ends.1
    change Gives (expression eof (tokens ++ rest)) e rest
    rw [expression, run]
    simp only [take?_of_lacks ends.2, gives_ok, and_self]
  | @assignment left right target value sign ofTarget ofValue ihTarget ihValue =>
    intro rest ends
    obtain ⟨fit, run⟩ := ihTarget (⟨.equals, sign⟩ :: (right ++ rest)) (by simp [Ends, EndsChain])
    obtain ⟨fit', run'⟩ := ihValue rest ends
    change Gives (expression eof (left ++ ⟨.equals, sign⟩ :: right ++ rest)) _ rest
    rw [List.append_assoc, List.cons_append, expression, run]
    simp only [take?_cons, run', gives_ok, and_self]
  | @single tokens e head ih =>
    intro rest ends
    obtain ⟨fit, run⟩ := ih rest ends.1
    obtain ⟨fit', run'⟩ := segments_of_lacks eof ends.2.1 ends.2.2
    change Gives (chain eof (tokens ++ rest)) e rest
    rw [chain, run]
    simp only [run', gives_ok, and_true]
    rfl
  | @compound left right head last middle ofHead ofTail ihHead ihTail =>
    intro rest ends
    obtain ⟨fit, run⟩ := ihHead (right ++ rest) (links_lack ofTail ends.1)
    obtain ⟨fit', run'⟩ := ihTail rest ends
    change Gives (chain eof (left ++ right ++ rest)) _ rest
    rw [List.append_assoc, chain, run]
    simp only [run', gives_ok, and_true]
    simp [ofChain]
  | noLink =>
    intro rest ends
    exact segments_of_lacks eof ends.2.1 ends.2.2
  | @dotLink left right first others point ofFirst ofOthers ihFirst ihOthers =>
    intro rest ends
    obtain ⟨text, span, after, front, fit, run⟩ :=
      ihFirst (right ++ rest) (links_lack ofOthers ends.1)
    obtain ⟨fit', run'⟩ := ihOthers rest ends
    change Gives (segments eof (⟨.dot, point⟩ :: (left ++ right) ++ rest)) _ rest
    rw [List.cons_append, List.append_assoc, front, segments]
    simp only [name, run, run', gives_ok, and_self]
  | @indexLink left right first others ofFirst ofOthers ihFirst ihOthers =>
    intro rest ends
    obtain ⟨opening, after, front, fit, run⟩ :=
      ihFirst (right ++ rest) (links_lack ofOthers ends.1)
    obtain ⟨fit', run'⟩ := ihOthers rest ends
    change Gives (segments eof (left ++ right ++ rest)) _ rest
    rw [List.append_assoc, front, segments]
    simp only [run, run', gives_ok, and_self]
  | literal value span =>
    intro rest ends
    change Gives (primary eof (⟨.literal value, span⟩ :: rest)) _ rest
    rw [primary]
    exact gives_ok.mpr ⟨rfl, rfl⟩
  | @parens tokens e opening closing inner ih =>
    intro rest ends
    obtain ⟨fit, run⟩ := ih (⟨.closeParen, closing⟩ :: rest) (by simp [Ends, EndsChain])
    change Gives (primary eof (⟨.openParen, opening⟩ :: (tokens ++ [⟨.closeParen, closing⟩]) ++ rest))
      e rest
    rw [List.cons_append, List.append_assoc, List.singleton_append, primary, run]
    simp only [mark, take?_cons, gives_ok, and_self]
  | ofReference inner ih => exact ih
  | @ofSegment tokens e inner ih =>
    intro rest ends
    obtain ⟨text, span, after, front, fit, run⟩ := ih rest ends
    change Gives (primary eof (tokens ++ rest)) e rest
    rw [front, primary, run]
    exact gives_ok.mpr ⟨rfl, rfl⟩
  | @ofIndexer tokens e inner ih =>
    intro rest ends
    obtain ⟨opening, after, front, fit, run⟩ := ih rest ends
    change Gives (primary eof (tokens ++ rest)) e rest
    rw [front, primary, run]
    exact gives_ok.mpr ⟨rfl, rfl⟩
  | property text span dotted =>
    intro rest ends
    refine ⟨text, span, rest, rfl, ?_⟩
    rw [segment, take?_of_lacks ends]
    exact gives_ok.mpr ⟨rfl, rfl⟩
  | emptyCall text span opening closing dotted =>
    intro rest ends
    refine ⟨text, span, ⟨.openParen, opening⟩ :: ⟨.closeParen, closing⟩ :: rest, rfl, ?_⟩
    rw [segment]
    simp only [take?_cons, gives_ok, and_self]
  | @call tokens args text span opening closing dotted ofArgs ih =>
    intro rest ends
    obtain ⟨fit, run⟩ := ih (⟨.closeParen, closing⟩ :: rest) (by simp [Ends, EndsChain])
    refine ⟨text, span, ⟨.openParen, opening⟩ :: (tokens ++ ⟨.closeParen, closing⟩ :: rest), ?_, ?_⟩
    · simp
    · rw [segment, take?_cons]
      dsimp only
      rw [take?_of_lacks (arguments_lack ofArgs)]
      simp only [run, mark, take?_cons, gives_ok, and_self]
  | hash text mark span =>
    intro rest ends
    change Gives (primary eof (⟨.hash, mark⟩ :: ⟨.name text, span⟩ :: rest)) _ rest
    rw [primary]
    exact gives_ok.mpr ⟨rfl, rfl⟩
  | @brackets tokens index opening closing inner ih =>
    intro rest ends
    obtain ⟨fit, run⟩ := ih (⟨.closeBracket, closing⟩ :: rest) (by simp [Ends, EndsChain])
    refine ⟨opening, tokens ++ ⟨.closeBracket, closing⟩ :: rest, by simp, ?_⟩
    rw [indexer, run]
    simp only [mark, take?_cons, gives_ok, and_self]
  | @oneArgument tokens e only ih =>
    intro rest ends
    obtain ⟨fit, run⟩ := ih rest ends.1
    change Gives (arguments eof (tokens ++ rest)) _ rest
    rw [arguments, run]
    simp only [take?_of_lacks ends.2, gives_ok, and_self]
  | @moreArguments left right first others comma ofFirst ofOthers ihFirst ihOthers =>
    intro rest ends
    obtain ⟨fit, run⟩ := ihFirst (⟨.comma, comma⟩ :: (right ++ rest)) (by simp [Ends, EndsChain])
    obtain ⟨fit', run'⟩ := ihOthers rest ends
    change Gives (arguments eof (left ++ ⟨.comma, comma⟩ :: right ++ rest)) _ rest
    rw [List.append_assoc, List.cons_append, arguments, run]
    simp only [take?_cons, run', gives_ok, and_self]

theorem derives_of_complete {eof : Nat} {tokens : List Token} {e : Expr}
    (read : complete eof tokens = .ok e) : Derives .expression tokens [e] := by
  unfold complete at read
  split at read
  · cases read
  · next tree fit run =>
    obtain rfl := Except.ok.inj read
    obtain ⟨used, front, derived⟩ := expression_derives (gives_of_eq run)
    rw [List.append_nil] at front
    exact front ▸ derived
  · cases read

theorem complete_of_derives (eof : Nat) {tokens : List Token} {e : Expr}
    (derived : Derives .expression tokens [e]) : complete eof tokens = .ok e := by
  have read := reads_of_derives eof derived [] (by simp [Ends, EndsChain])
  rw [List.append_nil] at read
  obtain ⟨fit, run⟩ := read
  rw [complete, run]

/-- The trees that are read are those that the grammar derives, and there is at most one. -/
theorem complete_iff_derives (eof : Nat) (tokens : List Token) :
    (∀ e, complete eof tokens = .ok e ↔ Derives .expression tokens [e]) ∧
    ∀ e other, Derives .expression tokens [e] → Derives .expression tokens [other] → e = other := by
  refine ⟨fun e => ⟨derives_of_complete, complete_of_derives eof⟩, ?_⟩
  intro e other first second
  have read := complete_of_derives eof first
  rw [complete_of_derives eof second] at read
  exact (Except.ok.inj read).symm

end Parser

/-! ## Spans -/

namespace Grammar

theorem kinds_cons {tokens : List Token} {kind : TokenKind} {kinds : List TokenKind} :
    tokens.map Token.kind = kind :: kinds ↔
    ∃ span rest, tokens = ⟨kind, span⟩ :: rest ∧ rest.map Token.kind = kinds := by
  rw [List.map_eq_cons_iff]
  constructor
  · rintro ⟨token, rest, rfl, rfl, rfl⟩
    exact ⟨token.span, rest, rfl, rfl⟩
  · rintro ⟨span, rest, rfl, rfl⟩
    exact ⟨_, rest, rfl, rfl, rfl⟩

theorem kinds_single {tokens : List Token} {kind : TokenKind} :
    tokens.map Token.kind = [kind] ↔ ∃ span, tokens = [⟨kind, span⟩] := by
  rw [kinds_cons]
  simp

theorem kinds_between {tokens left right : List Token} {mid : TokenKind} {at_ : Span}
    (same : tokens.map Token.kind = (left ++ ⟨mid, at_⟩ :: right).map Token.kind) :
    ∃ front span back, tokens = front ++ ⟨mid, span⟩ :: back ∧
      front.map Token.kind = left.map Token.kind ∧ back.map Token.kind = right.map Token.kind := by
  rw [List.map_append, List.map_cons, List.map_eq_append_iff] at same
  obtain ⟨front, rest, rfl, sameFront, sameRest⟩ := same
  obtain ⟨span, back, rfl, sameBack⟩ := kinds_cons.mp sameRest
  exact ⟨front, span, back, rfl, sameFront, sameBack⟩

/-- Tokens of the same kinds, wherever they stand, form the same phrase with trees of the same shapes. -/
def Carries (phrase : Nonterminal) (tokens : List Token) (es : List Expr) : Prop :=
  ∀ others : List Token, others.map Token.kind = tokens.map Token.kind →
    ∃ es', Derives phrase others es' ∧ es'.map Expr.shape = es.map Expr.shape

private theorem carries_rename {phrase other : Nonterminal} {tokens : List Token} {e : Expr}
    (rule : ∀ {tokens e}, Derives phrase tokens [e] → Derives other tokens [e])
    (carries : Carries phrase tokens [e]) : Carries other tokens [e] := by
  intro others same
  obtain ⟨es', derived, shapes⟩ := carries others same
  obtain ⟨e', rfl, _⟩ := List.map_eq_singleton_iff.mp shapes
  exact ⟨[e'], rule derived, shapes⟩

private theorem carries_one {phrase : Nonterminal} {tokens others : List Token} {e : Expr}
    (carries : Carries phrase tokens [e]) (same : others.map Token.kind = tokens.map Token.kind) :
    ∃ e', Derives phrase others [e'] ∧ e'.shape = e.shape := by
  obtain ⟨es', derived, shapes⟩ := carries others same
  obtain ⟨e', rfl, shape⟩ := List.map_eq_singleton_iff.mp shapes
  exact ⟨e', derived, shape⟩

/-- Where the tokens stand decides nothing about the trees but their spans. -/
theorem derives_carries {phrase : Nonterminal} {tokens : List Token} {es : List Expr}
    (derived : Derives phrase tokens es) : Carries phrase tokens es := by
  induction derived with
  | plain _ ih => exact carries_rename .plain ih
  | single _ ih => exact carries_rename .single ih
  | ofReference _ ih => exact carries_rename .ofReference ih
  | ofSegment _ ih => exact carries_rename .ofSegment ih
  | ofIndexer _ ih => exact carries_rename .ofIndexer ih
  | oneArgument _ ih => exact carries_rename .oneArgument ih
  | assignment sign ofTarget ofValue ihTarget ihValue =>
    intro others same
    obtain ⟨left, sign', right, rfl, sameLeft, sameRight⟩ := kinds_between same
    obtain ⟨target', derived, sameTarget⟩ := carries_one ihTarget sameLeft
    obtain ⟨value', derived', sameValue⟩ := carries_one ihValue sameRight
    exact ⟨_, .assignment sign' derived derived', by simp [sameTarget, sameValue]⟩
  | compound ofHead ofTail ihHead ihTail =>
    intro others same
    rw [List.map_append, List.map_eq_append_iff] at same
    obtain ⟨left, right, rfl, sameLeft, sameRight⟩ := same
    obtain ⟨head', derived, sameHead⟩ := carries_one ihHead sameLeft
    obtain ⟨_, derived', shapes⟩ := ihTail right sameRight
    rw [List.map_append, List.map_eq_append_iff] at shapes
    obtain ⟨middle', lasts, rfl, sameMiddle, sameLasts⟩ := shapes
    obtain ⟨last', rfl, sameLast⟩ := List.map_eq_singleton_iff.mp sameLasts
    exact ⟨_, .compound derived derived', by simp [sameHead, sameMiddle, sameLast]⟩
  | noLink =>
    intro others same
    obtain rfl := List.map_eq_nil_iff.mp same
    exact ⟨[], .noLink, rfl⟩
  | dotLink point ofFirst ofOthers ihFirst ihOthers =>
    intro others same
    rw [List.map_cons, List.map_append] at same
    obtain ⟨point', rest, rfl, sameRest⟩ := kinds_cons.mp same
    obtain ⟨left, right, rfl, sameLeft, sameRight⟩ := List.map_eq_append_iff.mp sameRest
    obtain ⟨first', derived, sameFirst⟩ := carries_one ihFirst sameLeft
    obtain ⟨others', derived', shapes⟩ := ihOthers right sameRight
    exact ⟨_, .dotLink point' derived derived', by simp [sameFirst, shapes]⟩
  | indexLink ofFirst ofOthers ihFirst ihOthers =>
    intro others same
    rw [List.map_append, List.map_eq_append_iff] at same
    obtain ⟨left, right, rfl, sameLeft, sameRight⟩ := same
    obtain ⟨first', derived, sameFirst⟩ := carries_one ihFirst sameLeft
    obtain ⟨others', derived', shapes⟩ := ihOthers right sameRight
    exact ⟨_, .indexLink derived derived', by simp [sameFirst, shapes]⟩
  | literal value span =>
    intro others same
    obtain ⟨span', rfl⟩ := kinds_single.mp same
    exact ⟨_, .literal value span', rfl⟩
  | parens opening closing inner ih =>
    intro others same
    obtain ⟨opening', rest, rfl, sameRest⟩ := kinds_cons.mp same
    obtain ⟨tokens', closing', after, rfl, sameTokens, none⟩ := kinds_between sameRest
    obtain rfl := List.map_eq_nil_iff.mp none
    obtain ⟨e', derived, sameInner⟩ := carries_one ih sameTokens
    exact ⟨_, .parens opening' closing' derived, by simp [sameInner]⟩
  | property text span dotted =>
    intro others same
    obtain ⟨span', rfl⟩ := kinds_single.mp same
    exact ⟨_, .property text span' dotted, rfl⟩
  | emptyCall text span opening closing dotted =>
    intro others same
    obtain ⟨span', rest, rfl, sameRest⟩ := kinds_cons.mp same
    obtain ⟨opening', last, rfl, sameLast⟩ := kinds_cons.mp sameRest
    obtain ⟨closing', rfl⟩ := kinds_single.mp sameLast
    exact ⟨_, .emptyCall text span' opening' closing' dotted, rfl⟩
  | call text span opening closing dotted ofArgs ih =>
    intro others same
    obtain ⟨span', rest, rfl, sameRest⟩ := kinds_cons.mp same
    obtain ⟨opening', last, rfl, sameLast⟩ := kinds_cons.mp sameRest
    obtain ⟨tokens', closing', after, rfl, sameTokens, none⟩ := kinds_between sameLast
    obtain rfl := List.map_eq_nil_iff.mp none
    obtain ⟨args', derived, shapes⟩ := ih tokens' sameTokens
    exact ⟨_, .call text span' opening' closing' dotted derived, by simp [shapes]⟩
  | hash text mark span =>
    intro others same
    obtain ⟨mark', rest, rfl, sameRest⟩ := kinds_cons.mp same
    obtain ⟨span', rfl⟩ := kinds_single.mp sameRest
    exact ⟨_, .hash text mark' span', rfl⟩
  | brackets opening closing inner ih =>
    intro others same
    obtain ⟨opening', rest, rfl, sameRest⟩ := kinds_cons.mp same
    obtain ⟨tokens', closing', after, rfl, sameTokens, none⟩ := kinds_between sameRest
    obtain rfl := List.map_eq_nil_iff.mp none
    obtain ⟨index', derived, sameIndex⟩ := carries_one ih sameTokens
    exact ⟨_, .brackets opening' closing' derived, by simp [sameIndex]⟩
  | moreArguments comma ofFirst ofOthers ihFirst ihOthers =>
    intro others same
    obtain ⟨left, comma', right, rfl, sameLeft, sameRight⟩ := kinds_between same
    obtain ⟨first', derived, sameFirst⟩ := carries_one ihFirst sameLeft
    obtain ⟨others', derived', shapes⟩ := ihOthers right sameRight
    exact ⟨_, .moreArguments comma' derived derived', by simp [sameFirst, shapes]⟩

end Grammar

/-! ## Sources -/

namespace Expr

section
variable {source : String} {tokens : List Token}

/-- A source text whose tokens are known is read as they are. -/
theorem parse_eq_complete (read : Lexer.tokens source = .ok tokens)
    (short : Text.bytes source.toList ≤ Span.offsetLimit) :
    parse source = Parser.complete (Text.bytes source.toList) tokens := by
  have place := (Span.ofRange_eq_ok_iff _ _ ⟨Text.bytes source.toList, Text.bytes source.toList⟩).mpr
    ⟨rfl, short, short⟩
  simp only [parse, read, bind, Except.bind, place]

/-- A source text may have tokens, and its end no place. -/
theorem parse_of_long (read : Lexer.tokens source = .ok tokens)
    (long : Span.offsetLimit < Text.bytes source.toList) :
    parse source = .error (.sourceTooLarge (.startTooLarge (Text.bytes source.toList))) := by
  simp only [parse, read, bind, Except.bind, Span.ofRange, if_pos long]

end

/-- A source text is read if it can be cut into tokens, is not too long and its tokens form a tree. -/
theorem parse_eq_ok_iff {source : String} {e : Expr} : parse source = .ok e ↔
    ∃ tokens, Lexer.scan 0 source.toList = .ok tokens ∧ Text.bytes source.toList ≤ Span.offsetLimit ∧
      Derives .expression tokens [e] := by
  unfold parse Lexer.tokens
  cases read : Lexer.scan 0 source.toList with
  | error cause => simp [bind, Except.bind]
  | ok tokens =>
    simp only [bind, Except.bind, Except.ok.injEq, exists_eq_left']
    constructor
    · intro parsed
      split at parsed
      · cases parsed
      · next eof place =>
        exact ⟨((Span.ofRange_eq_ok_iff ..).mp place).2.1, Parser.derives_of_complete parsed⟩
    · rintro ⟨short, derived⟩
      rw [(Span.ofRange_eq_ok_iff _ _ ⟨Text.bytes source.toList, Text.bytes source.toList⟩).mpr
        ⟨rfl, short, short⟩]
      exact Parser.complete_of_derives _ derived

/-- A source text that is read is cut into tokens from which the grammar derives the tree. -/
theorem of_parse {source : String} {e : Expr} (parsed : parse source = .ok e) :
    ∃ tokens, Lexer.scan 0 source.toList = .ok tokens ∧ Derives .expression tokens [e] := by
  obtain ⟨tokens, read, _, derived⟩ := parse_eq_ok_iff.mp parsed
  exact ⟨tokens, read, derived⟩

theorem parse_of_derives {source : String} {tokens : List Token} {e : Expr}
    (read : Lexer.scan 0 source.toList = .ok tokens)
    (short : Text.bytes source.toList ≤ Span.offsetLimit)
    (derived : Derives .expression tokens [e]) : parse source = .ok e :=
  parse_eq_ok_iff.mpr ⟨tokens, read, short, derived⟩

end Expr

end DotChain
