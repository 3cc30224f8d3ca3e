import DotChain.Proofs.Grammar

/-!
# How reading ends

On every list of tokens, each reading function either reads a phrase or stops at a token that cannot stand
where it does. It looks at no token behind the one at which it ends, and at no place (`*_ends`). Main
statement: `first_impossible_token`, what was read in front of an error can be completed to an expression,
and together with the token at fault it cannot.
-/

namespace DotChain

open Grammar

/-! ## Phrases that have begun -/

namespace Grammar

/-- Tokens form a phrase of a kind. -/
def Derivable (phrase : Nonterminal) (tokens : List Token) : Prop := ∃ es, Derives phrase tokens es

/-- Tokens form a phrase of a kind once some more tokens follow. -/
def Viable (phrase : Nonterminal) (tokens : List Token) : Prop :=
  ∃ more, Derivable phrase (tokens ++ more)

theorem Derivable.viable {phrase : Nonterminal} {tokens : List Token}
    (derivable : Derivable phrase tokens) : Viable phrase tokens :=
  ⟨[], by rwa [List.append_nil]⟩

/-- Whether a phrase lists links or arguments. -/
def Nonterminal.Lists : Nonterminal → Bool
  | links | arguments => true
  | _ => false

namespace Derivable

variable {tokens left right : List Token}

/-- A phrase that lists neither links nor arguments has one tree. -/
theorem tree {phrase : Nonterminal} (derivable : Derivable phrase tokens) (single : phrase.Lists = false) :
    ∃ e, Derives phrase tokens [e] := by
  obtain ⟨es, derived⟩ := derivable
  have one : ∃ e, es = [e] := by
    cases derived with
    | noLink | dotLink | indexLink | oneArgument | moreArguments => cases single
    | _ => exact ⟨_, rfl⟩
  obtain ⟨e, rfl⟩ := one
  exact ⟨e, derived⟩

theorem plain (target : Derivable .chain tokens) : Derivable .expression tokens := by
  obtain ⟨e, derived⟩ := target.tree rfl
  exact ⟨[e], .plain derived⟩

theorem assignment (sign : Span) (target : Derivable .chain left) (value : Derivable .expression right) :
    Derivable .expression (left ++ ⟨.equals, sign⟩ :: right) := by
  obtain ⟨e, derived⟩ := target.tree rfl
  obtain ⟨e', derived'⟩ := value.tree rfl
  exact ⟨_, .assignment sign derived derived'⟩

theorem chain (head : Derivable .primary left) (tail : Derivable .links right) :
    Derivable .chain (left ++ right) := by
  obtain ⟨e, derived⟩ := head.tree rfl
  obtain ⟨es, derived'⟩ := tail
  exact ⟨_, Parser.derives_ofChain derived derived'⟩

theorem dotLink (point : Span) (first : Derivable (.segment true) left) (others : Derivable .links right) :
    Derivable .links (⟨.dot, point⟩ :: (left ++ right)) := by
  obtain ⟨e, derived⟩ := first.tree rfl
  obtain ⟨es, derived'⟩ := others
  exact ⟨_, .dotLink point derived derived'⟩

theorem indexLink (first : Derivable .indexer left) (others : Derivable .links right) :
    Derivable .links (left ++ right) := by
  obtain ⟨e, derived⟩ := first.tree rfl
  obtain ⟨es, derived'⟩ := others
  exact ⟨_, .indexLink derived derived'⟩

theorem noLink : Derivable .links [] := ⟨[], .noLink⟩

theorem parens (opening closing : Span) (inner : Derivable .expression tokens) :
    Derivable .primary (⟨.openParen, opening⟩ :: (tokens ++ [⟨.closeParen, closing⟩])) := by
  obtain ⟨e, derived⟩ := inner.tree rfl
  exact ⟨_, .parens opening closing derived⟩

theorem ofSegment (inner : Derivable (.segment false) tokens) : Derivable .primary tokens := by
  obtain ⟨e, derived⟩ := inner.tree rfl
  exact ⟨_, .ofSegment derived⟩

theorem ofIndexer (inner : Derivable .indexer tokens) : Derivable .primary tokens := by
  obtain ⟨e, derived⟩ := inner.tree rfl
  exact ⟨_, .ofIndexer derived⟩

theorem property (name : String) (span : Span) (dotted : Bool) :
    Derivable (.segment dotted) [⟨.name name, span⟩] :=
  ⟨_, .property name span dotted⟩

theorem call (name : String) (span opening closing : Span) (dotted : Bool)
    (args : Derivable .arguments tokens) : Derivable (.segment dotted)
      (⟨.name name, span⟩ :: ⟨.openParen, opening⟩ :: (tokens ++ [⟨.closeParen, closing⟩])) := by
  obtain ⟨es, derived⟩ := args
  exact ⟨_, .call name span opening closing dotted derived⟩

theorem brackets (opening closing : Span) (inner : Derivable .expression tokens) :
    Derivable .indexer (⟨.openBracket, opening⟩ :: (tokens ++ [⟨.closeBracket, closing⟩])) := by
  obtain ⟨e, derived⟩ := inner.tree rfl
  exact ⟨_, .brackets opening closing derived⟩

theorem oneArgument (only : Derivable .expression tokens) : Derivable .arguments tokens := by
  obtain ⟨e, derived⟩ := only.tree rfl
  exact ⟨_, .oneArgument derived⟩

theorem moreArguments (comma : Span) (first : Derivable .expression left)
    (others : Derivable .arguments right) :
    Derivable .arguments (left ++ ⟨.comma, comma⟩ :: right) := by
  obtain ⟨e, derived⟩ := first.tree rfl
  obtain ⟨es, derived'⟩ := others
  exact ⟨_, .moreArguments comma derived derived'⟩

end Derivable

end Grammar

/-! ## Skimming -/

namespace Parser

/-- What reading leaves, without what was read. -/
def skim {α : Type} {fits : List Token → Prop}
    (read : Except SyntaxError (α × { rest : List Token // fits rest })) : Except SyntaxError (List Token) :=
  read.map fun result => result.2.1

theorem fits_of_skim {α : Type} {fits : List Token → Prop} {rest : List Token}
    {read : Except SyntaxError (α × { rest : List Token // fits rest })} (left : skim read = .ok rest) :
    fits rest := by
  cases read with
  | error cause => cases left
  | ok result =>
    obtain rfl := Except.ok.inj left
    exact result.2.2

/-- What a reading function leaves behind a mark, and everything if there is no such mark. -/
def perhaps (kind : TokenKind) (next : List Token → Except SyntaxError (List Token)) (input : List Token) :
    Except SyntaxError (List Token) :=
  match take? kind input with
  | none => .ok input
  | some (_, ⟨rest, _⟩) => next rest

section
variable (eof : Nat) (input : List Token)

/-- What is left behind the closing parenthesis of a method. -/
def skimCall : Except SyntaxError (List Token) :=
  match take? .closeParen input with
  | some (_, ⟨rest, _⟩) => .ok rest
  | none => skim (arguments eof input) >>= fun rest => skim (mark eof .closeParen .commaOrParen rest)

/-- What is left behind the parentheses of a method, if any. -/
def skimSegment : Except SyntaxError (List Token) :=
  perhaps .openParen (skimCall eof) input

/-- What is left behind the closing bracket of an indexer. -/
def skimIndexer : Except SyntaxError (List Token) :=
  skim (expression eof input) >>= fun rest => skim (mark eof .closeBracket .closingBracket rest)

theorem skim_expression : skim (expression eof input) =
    skim (chain eof input) >>= perhaps .equals fun rest => skim (expression eof rest) := by
  rw [expression]
  rcases chain eof input with cause | ⟨target, rest, fit⟩
  · rfl
  · dsimp only [skim, Except.map, bind, Except.bind]
    unfold perhaps
    rcases take? .equals rest with _ | ⟨sign, after, fit'⟩
    · rfl
    · dsimp only
      rcases expression eof after with cause | ⟨value, rest, fit''⟩ <;> rfl

theorem skim_chain : skim (chain eof input) =
    skim (primary eof input) >>= fun rest => skim (segments eof rest) := by
  rw [chain]
  rcases primary eof input with cause | ⟨head, rest, fit⟩
  · rfl
  · dsimp only [skim, Except.map, bind, Except.bind]
    rcases segments eof rest with cause | ⟨tail, rest, fit'⟩ <;> rfl

theorem skim_arguments : skim (arguments eof input) =
    skim (expression eof input) >>= perhaps .comma fun rest => skim (arguments eof rest) := by
  rw [arguments]
  rcases expression eof input with cause | ⟨first, rest, fit⟩
  · rfl
  · dsimp only [skim, Except.map, bind, Except.bind]
    unfold perhaps
    rcases take? .comma rest with _ | ⟨comma, after, fit'⟩
    · rfl
    · dsimp only
      rcases arguments eof after with cause | ⟨others, rest, fit''⟩ <;> rfl

theorem skim_indexer (opening : Span) : skim (indexer eof opening input) = skimIndexer eof input := by
  rw [indexer, skimIndexer]
  rcases expression eof input with cause | ⟨index, rest, fit⟩
  · rfl
  · dsimp only [skim, Except.map, bind, Except.bind]
    rcases mark eof .closeBracket .closingBracket rest with cause | ⟨close, rest, fit'⟩ <;> rfl

theorem skim_segment (text : String) (span : Span) (dotted : Bool) :
    skim (segment eof text span dotted input) = skimSegment eof input := by
  rw [segment]
  unfold skimSegment skimCall perhaps
  rcases take? .openParen input with _ | ⟨opening, rest, fit⟩
  · rfl
  · dsimp only
    rcases take? .closeParen rest with _ | ⟨close, rest, fit'⟩
    · dsimp only
      rcases arguments eof rest with cause | ⟨args, rest, fit''⟩
      · rfl
      · dsimp only [skim, Except.map, bind, Except.bind]
        rcases mark eof .closeParen .commaOrParen rest with cause | ⟨close, last, _⟩ <;> rfl
    · rfl

theorem skim_segments_dot (point : Span) : skim (segments eof (⟨.dot, point⟩ :: input)) =
    skim (name eof .memberName input) >>= fun rest =>
      skimSegment eof rest >>= fun rest => skim (segments eof rest) := by
  rw [segments]
  rcases name eof .memberName input with cause | ⟨⟨text, span⟩, rest, fit⟩
  · rfl
  · dsimp only [skim, Except.map, bind, Except.bind]
    rw [← skim_segment eof rest text span true]
    rcases segment eof text span true rest with cause | ⟨first, rest, fit'⟩
    · rfl
    · dsimp only [skim, Except.map]
      rcases segments eof rest with cause | ⟨others, rest, fit''⟩ <;> rfl

theorem skim_segments_bracket (opening : Span) :
    skim (segments eof (⟨.openBracket, opening⟩ :: input)) =
      skimIndexer eof input >>= fun rest => skim (segments eof rest) := by
  rw [segments, ← skim_indexer eof input opening]
  rcases indexer eof opening input with cause | ⟨first, rest, fit⟩
  · rfl
  · dsimp only [skim, Except.map, bind, Except.bind]
    rcases segments eof rest with cause | ⟨others, rest, fit'⟩ <;> rfl

theorem skim_primary_parens (opening : Span) : skim (primary eof (⟨.openParen, opening⟩ :: input)) =
    skim (expression eof input) >>= fun rest => skim (mark eof .closeParen .closingParen rest) := by
  rw [primary]
  rcases expression eof input with cause | ⟨inner, rest, fit⟩
  · rfl
  · dsimp only [skim, Except.map, bind, Except.bind]
    rcases mark eof .closeParen .closingParen rest with cause | ⟨close, rest, fit'⟩ <;> rfl

theorem skim_primary_hash (mark : Span) : skim (primary eof (⟨.hash, mark⟩ :: input)) =
    skim (name eof .variableName input) := by
  rw [primary]
  rcases name eof .variableName input with cause | ⟨⟨text, span⟩, rest, fit⟩ <;> rfl

theorem skim_primary_name (text : String) (span : Span) :
    skim (primary eof (⟨.name text, span⟩ :: input)) = skimSegment eof input := by
  rw [primary, ← skim_segment eof input text span false]
  rcases segment eof text span false input with cause | ⟨first, rest, fit⟩ <;> rfl

theorem skim_primary_bracket (opening : Span) :
    skim (primary eof (⟨.openBracket, opening⟩ :: input)) = skimIndexer eof input := by
  rw [primary, ← skim_indexer eof input opening]
  rcases indexer eof opening input with cause | ⟨first, rest, fit⟩ <;> rfl

end

/-! ## First tokens -/

/-- Two lists of tokens begin with tokens of one kind, or both are empty. -/
def SameFirst (tokens others : List Token) : Prop :=
  others.head?.map (·.kind) = tokens.head?.map (·.kind)

section
variable {tokens others : List Token}

theorem SameFirst.lacks {kind : TokenKind} (same : SameFirst tokens others) (lacks : Lacks kind tokens) :
    Lacks kind others := by
  unfold Lacks at *
  rwa [same]

theorem SameFirst.append {front front' : List Token}
    (kinds : front'.map Token.kind = front.map Token.kind) (same : SameFirst tokens others) :
    SameFirst (front ++ tokens) (front' ++ others) := by
  cases front with
  | nil =>
    obtain rfl := List.map_eq_nil_iff.mp kinds
    exact same
  | cons token front =>
    obtain ⟨span, rest, rfl, _⟩ := kinds_cons.mp kinds
    rfl

@[simp] theorem sameFirst_nil : SameFirst [] others ↔ others = [] := by
  simp [SameFirst]

@[simp] theorem sameFirst_cons {kind : TokenKind} {span : Span} :
    SameFirst (⟨kind, span⟩ :: tokens) others ↔ ∃ span' rest, others = ⟨kind, span'⟩ :: rest := by
  rw [SameFirst, List.head?_cons, Option.map_some, Option.map_eq_some_iff]
  constructor
  · rintro ⟨token, first, rfl⟩
    obtain ⟨rest, rfl⟩ := List.head?_eq_some_iff.mp first
    exact ⟨token.span, rest, rfl⟩
  · rintro ⟨span', rest, rfl⟩
    exact ⟨_, rfl, rfl⟩

end

/-! ## How a reading function ends -/

/-- Where reading a phrase ends: behind a phrase, or at a token with which the phrase cannot go on, the
tokens in front of which begin one. Reading other tokens ends the same way at the same token if all
tokens up to that one are of the same kinds. -/
inductive Ending (forms : List Token → Prop)
    (read : Nat → List Token → Except SyntaxError (List Token)) : List Token → Prop where
  | done (front rest : List Token) (whole : forms front)
    (again : ∀ eof front' rest', front'.map Token.kind = front.map Token.kind → SameFirst rest rest' →
      read eof (front' ++ rest') = .ok rest') :
    Ending forms read (front ++ rest)
  | stuck (front rest : List Token) (expected : Expectation) (begun : ∃ more, forms (front ++ more))
    (again : ∀ eof front' rest', front'.map Token.kind = front.map Token.kind → SameFirst rest rest' →
      read eof (front' ++ rest') = .error (unexpected eof expected rest')) :
    Ending forms read (front ++ rest)

/-- What a token of a kind completes to a phrase. -/
def Behind (kind : TokenKind) (forms : List Token → Prop) (tokens : List Token) : Prop :=
  ∀ span, forms (⟨kind, span⟩ :: tokens)

/-- A mark and a phrase, or nothing. -/
def Perhaps (kind : TokenKind) (forms : List Token → Prop) (tokens : List Token) : Prop :=
  tokens = [] ∨ ∃ span rest, tokens = ⟨kind, span⟩ :: rest ∧ forms rest

namespace Ending

variable {forms forms₁ forms₂ : List Token → Prop}
  {read read₁ read₂ : Nat → List Token → Except SyntaxError (List Token)} {input : List Token}

theorem imp (ending : Ending forms₁ read input) (weaker : ∀ tokens, forms₁ tokens → forms tokens) :
    Ending forms read input := by
  cases ending with
  | done front rest whole again => exact done front rest (weaker front whole) again
  | stuck front rest expected begun again =>
    exact stuck front rest expected (begun.imp fun more => weaker _) again

/-- Only the first token decides which of several functions reads. -/
theorem asFrom (ending : Ending forms read₁ input) (runs : ∀ eof others, SameFirst input others →
    read eof others = read₁ eof others) : Ending forms read input := by
  cases ending with
  | done front rest whole again =>
    refine done front rest whole fun eof front' rest' kinds same => ?_
    exact (runs eof _ (same.append kinds)).trans (again eof front' rest' kinds same)
  | stuck front rest expected begun again =>
    refine stuck front rest expected begun fun eof front' rest' kinds same => ?_
    exact (runs eof _ (same.append kinds)).trans (again eof front' rest' kinds same)

/-- Nothing is read. -/
theorem nothing (whole : forms []) (again : ∀ eof others, SameFirst input others →
    read eof others = .ok others) : Ending forms read input :=
  done [] input whole fun eof front' rest' kinds same => by
    obtain rfl := List.map_eq_nil_iff.mp kinds
    exact again eof rest' same

/-- The first token is already at fault. -/
theorem atOnce (expected : Expectation) (possible : ∃ tokens, forms tokens)
    (again : ∀ eof others, SameFirst input others →
      read eof others = .error (unexpected eof expected others)) : Ending forms read input :=
  stuck [] input expected possible fun eof front' rest' kinds same => by
    obtain rfl := List.map_eq_nil_iff.mp kinds
    exact again eof rest' same

/-- One token is read. -/
theorem one {kind : TokenKind} {span : Span} (whole : forms [⟨kind, span⟩])
    (runs : ∀ eof input span, read eof (⟨kind, span⟩ :: input) = .ok input) :
    Ending forms read (⟨kind, span⟩ :: input) :=
  done [⟨kind, span⟩] input whole fun eof front' rest' kinds _ => by
    obtain ⟨span', rfl⟩ := kinds_single.mp kinds
    exact runs eof rest' span'

/-- What is read behind a known token. -/
theorem behind {kind : TokenKind} {span : Span} (inner : Ending (Behind kind forms) read₁ input)
    (runs : ∀ eof input span, read eof (⟨kind, span⟩ :: input) = read₁ eof input) :
    Ending forms read (⟨kind, span⟩ :: input) := by
  cases inner with
  | done front rest whole again =>
    refine done (⟨kind, span⟩ :: front) rest (whole span) ?_
    intro eof front' rest' kinds same
    obtain ⟨span', front', rfl, kinds'⟩ := kinds_cons.mp kinds
    exact (runs eof _ span').trans (again eof front' rest' kinds' same)
  | stuck front rest expected begun again =>
    obtain ⟨more, whole⟩ := begun
    refine stuck (⟨kind, span⟩ :: front) rest expected ⟨more, whole span⟩ ?_
    intro eof front' rest' kinds same
    obtain ⟨span', front', rfl, kinds'⟩ := kinds_cons.mp kinds
    exact (runs eof _ span').trans (again eof front' rest' kinds' same)

/-- One phrase and then another. -/
theorem andThen (first : Ending forms₁ read₁ input)
    (second : ∀ rest, read₁ 0 input = .ok rest → Ending forms₂ read₂ rest)
    (possible : ∃ tokens, forms₂ tokens)
    (joins : ∀ left right, forms₁ left → forms₂ right → forms (left ++ right))
    (runs : ∀ eof input, read eof input = read₁ eof input >>= read₂ eof) : Ending forms read input := by
  cases first with
  | stuck left rest expected begun again =>
    obtain ⟨more, begins⟩ := begun
    obtain ⟨right, follows⟩ := possible
    refine stuck left rest expected ⟨more ++ right, ?_⟩ ?_
    · rw [← List.append_assoc]
      exact joins _ right begins follows
    · intro eof left' rest' kinds same
      rw [runs, again eof left' rest' kinds same]
      rfl
  | done left rest whole again =>
    -- the token behind the first phrase is the first of the second or the one behind both
    have continued (eof : Nat) (both right rest' : List Token)
        (kinds : both.map Token.kind = (left ++ right).map Token.kind)
        (same : ∀ right', right'.map Token.kind = right.map Token.kind →
          SameFirst rest (right' ++ rest')) :
        ∃ right', right'.map Token.kind = right.map Token.kind ∧
          read eof (both ++ rest') = read₂ eof (right' ++ rest') := by
      rw [List.map_append] at kinds
      obtain ⟨left', right', rfl, ofLeft, ofRight⟩ := List.map_eq_append_iff.mp kinds
      refine ⟨right', ofRight, ?_⟩
      rw [runs, List.append_assoc, again eof left' _ ofLeft (same right' ofRight)]
      rfl
    cases second rest (again 0 left rest rfl rfl) with
    | done right rest follows again' =>
      rw [← List.append_assoc]
      refine done (left ++ right) rest (joins left right whole follows) ?_
      intro eof both rest' kinds same
      obtain ⟨right', ofRight, runs'⟩ := continued eof both right rest' kinds fun _ kinds => same.append kinds
      exact runs'.trans (again' eof right' rest' ofRight same)
    | stuck right rest expected begun again' =>
      obtain ⟨more, follows⟩ := begun
      rw [← List.append_assoc]
      refine stuck (left ++ right) rest expected ⟨more, ?_⟩ ?_
      · rw [List.append_assoc]
        exact joins left _ whole follows
      · intro eof both rest' kinds same
        obtain ⟨right', ofRight, runs'⟩ :=
          continued eof both right rest' kinds fun _ kinds => same.append kinds
        exact runs'.trans (again' eof right' rest' ofRight same)

/-- A mark and what it introduces, or neither. -/
theorem perhaps {kind : TokenKind}
    (inner : ∀ span rest, input = ⟨kind, span⟩ :: rest → Ending forms read rest) :
    Ending (Perhaps kind forms) (fun eof => Parser.perhaps kind (read eof)) input := by
  rcases take?_spec kind input with ⟨_, lacks⟩ | ⟨span, rest, _, rfl, _⟩
  · refine .nothing (.inl rfl) fun eof others same => ?_
    rw [Parser.perhaps, take?_of_lacks (same.lacks lacks)]
  · refine .behind ((inner span rest rfl).imp fun tokens whole span => .inr ⟨span, tokens, rfl, whole⟩) ?_
    intro eof input span
    rw [Parser.perhaps, take?_cons]

end Ending

theorem mark_ends (kind : TokenKind) (expected : Expectation) (input : List Token) :
    Ending (fun tokens => ∃ span, tokens = [⟨kind, span⟩])
      (fun eof input => skim (mark eof kind expected input)) input := by
  rcases take?_spec kind input with ⟨_, lacks⟩ | ⟨span, rest, _, rfl, _⟩
  · refine .atOnce expected ⟨_, .unplaced, rfl⟩ fun eof others same => ?_
    rw [mark, take?_of_lacks (same.lacks lacks)]
    rfl
  · refine .one ⟨span, rfl⟩ fun eof input span => ?_
    rw [mark, take?_cons]
    rfl

theorem name_ends (expected : Expectation) (input : List Token) :
    Ending (fun tokens => ∃ text span, tokens = [⟨.name text, span⟩])
      (fun eof input => skim (name eof expected input)) input := by
  have possible : ∃ tokens : List Token, ∃ text span, tokens = [⟨.name text, span⟩] :=
    ⟨_, "", .unplaced, rfl⟩
  cases input with
  | nil =>
    refine .atOnce expected possible fun eof others same => ?_
    rw [sameFirst_nil.mp same]
    rfl
  | cons token rest =>
    obtain ⟨kind, span⟩ := token
    cases kind with
    | name text => exact .one ⟨text, span, rfl⟩ fun eof input span => rfl
    | _ =>
      refine .atOnce expected possible fun eof others same => ?_
      obtain ⟨span', rest', rfl⟩ := sameFirst_cons.mp same
      rfl

/-- What completes a name to a segment. -/
def AfterName (tokens : List Token) : Prop :=
  ∀ text dotted, Behind (.name text) (Derivable (.segment dotted)) tokens

mutual

theorem expression_ends (input : List Token) :
    Ending (Derivable .expression) (fun eof input => skim (expression eof input)) input := by
  have value (rest : List Token) (left : skim (chain 0 input) = .ok rest) :
      Ending (Perhaps .equals (Derivable .expression))
        (fun eof => perhaps .equals fun rest => skim (expression eof rest)) rest := by
    have shorter : rest.length < input.length := fits_of_skim left
    refine .perhaps fun sign after same => ?_
    have : rest.length = after.length + 1 := congrArg List.length same
    exact expression_ends after
  refine .andThen (chain_ends input) value ⟨[], .inl rfl⟩ ?_ skim_expression
  rintro target _ whole (rfl | ⟨sign, value, rfl, whole'⟩)
  · rw [List.append_nil]
    exact whole.plain
  · exact whole.assignment sign whole'
termination_by (input.length, 4)
decreasing_by all_goals omega

theorem chain_ends (input : List Token) :
    Ending (Derivable .chain) (fun eof input => skim (chain eof input)) input := by
  refine .andThen (primary_ends input) ?_ ⟨[], .noLink⟩ (fun _ _ => .chain) skim_chain
  intro rest left
  have shorter : rest.length < input.length := fits_of_skim left
  exact segments_ends rest
termination_by (input.length, 3)
decreasing_by all_goals omega

theorem segments_ends (input : List Token) :
    Ending (Derivable .links) (fun eof input => skim (segments eof input)) input := by
  rcases take?_spec .dot input with ⟨_, noDot⟩ | ⟨point, rest, _, rfl, _⟩
  · rcases take?_spec .openBracket input with ⟨_, noBracket⟩ | ⟨opening, rest, _, rfl, _⟩
    · refine .nothing .noLink fun eof others same => ?_
      obtain ⟨fit, run⟩ := segments_of_lacks eof (same.lacks noDot) (same.lacks noBracket)
      rw [run]
      rfl
    · refine .behind (.andThen (indexer_ends rest) ?_ ⟨[], Derivable.noLink⟩ ?_ fun eof input => rfl)
        skim_segments_bracket
      · intro after left
        rw [← skim_indexer 0 rest .unplaced] at left
        have shorter : after.length < rest.length := fits_of_skim left
        exact segments_ends after
      · intro left right whole whole' opening
        exact .indexLink (whole opening) whole'
  · have tail (after : List Token) (left : skim (name 0 .memberName rest) = .ok after) :
        Ending (fun tokens => ∀ text span, Behind .dot (Derivable .links) (⟨.name text, span⟩ :: tokens))
          (fun eof input => skimSegment eof input >>= fun rest => skim (segments eof rest)) after := by
      have shorter : after.length < rest.length := fits_of_skim left
      refine .andThen (segment_ends after) ?_ ⟨[], Derivable.noLink⟩ ?_ fun eof input => rfl
      · intro last left
        rw [← skim_segment 0 after "" .unplaced true] at left
        have shorter : last.length ≤ after.length := fits_of_skim left
        exact segments_ends last
      · intro left right whole whole' text span point
        exact .dotLink point (whole text true span) whole'
    refine .behind (.andThen (name_ends .memberName rest) tail ?_ ?_ fun eof input => rfl)
      skim_segments_dot
    · exact ⟨[], fun text span point => .dotLink point (.property text span true) .noLink⟩
    · rintro _ right ⟨text, span, rfl⟩ whole point
      exact whole text span point
termination_by (input.length, 3)
decreasing_by all_goals simp only [List.length_cons] at *; omega

theorem primary_ends (input : List Token) :
    Ending (Derivable .primary) (fun eof input => skim (primary eof input)) input := by
  have possible : ∃ tokens, Derivable .primary tokens :=
    ⟨_, .ofSegment (.property "" .unplaced false)⟩
  cases input with
  | nil =>
    refine .atOnce .expression possible fun eof others same => ?_
    rw [sameFirst_nil.mp same, primary.eq_def]
    rfl
  | cons token rest =>
    obtain ⟨kind, span⟩ := token
    cases kind with
    | literal value =>
      refine .one ⟨_, .literal value span⟩ fun eof input span => ?_
      rw [primary]
      rfl
    | openParen =>
      refine .behind (.andThen (expression_ends rest) (fun after _ => mark_ends .closeParen .closingParen after)
        ⟨_, .unplaced, rfl⟩ ?_ fun eof input => rfl) skim_primary_parens
      rintro inner _ whole ⟨closing, rfl⟩ opening
      exact whole.parens opening closing
    | hash =>
      refine .behind ((name_ends .variableName rest).imp ?_) skim_primary_hash
      rintro _ ⟨text, span, rfl⟩ mark
      exact ⟨_, .ofReference (.hash text mark span)⟩
    | name text =>
      refine .behind ((segment_ends rest).imp ?_) fun eof input => skim_primary_name eof input text
      exact fun tokens whole span => .ofSegment (whole text false span)
    | openBracket =>
      refine .behind ((indexer_ends rest).imp ?_) skim_primary_bracket
      exact fun tokens whole opening => .ofIndexer (whole opening)
    | _ =>
      refine .atOnce .expression possible fun eof others same => ?_
      obtain ⟨span', rest', rfl⟩ := sameFirst_cons.mp same
      rw [primary.eq_def]
      rfl
termination_by (input.length, 2)
decreasing_by all_goals simp only [List.length_cons]; omega

theorem segment_ends (input : List Token) : Ending AfterName skimSegment input := by
  have call (opening : Span) (rest : List Token) (same : input = ⟨.openParen, opening⟩ :: rest) :
      Ending (Behind .openParen AfterName) skimCall rest := by
    have : input.length = rest.length + 1 := congrArg List.length same
    exact call_ends rest
  refine Ending.imp (.perhaps call) ?_
  rintro _ (rfl | ⟨opening, rest, rfl, whole⟩) text dotted span
  · exact .property text span dotted
  · exact whole opening text dotted span
termination_by (input.length, 1)
decreasing_by all_goals omega

theorem call_ends (input : List Token) : Ending (Behind .openParen AfterName) skimCall input := by
  rcases take?_spec .closeParen input with ⟨_, lacks⟩ | ⟨closing, rest, _, rfl, _⟩
  · have listed : Ending (Behind .openParen AfterName)
        (fun eof input => skim (arguments eof input) >>= fun rest =>
          skim (mark eof .closeParen .commaOrParen rest)) input := by
      refine .andThen (arguments_ends input) (fun after _ => mark_ends .closeParen .commaOrParen after)
        ⟨_, .unplaced, rfl⟩ ?_ fun eof input => rfl
      rintro args _ whole ⟨closing, rfl⟩ opening text dotted span
      exact whole.call text span opening closing dotted
    refine listed.asFrom fun eof others same => ?_
    rw [skimCall, take?_of_lacks (same.lacks lacks)]
  · refine .one (fun opening text dotted span => ⟨_, .emptyCall text span opening closing dotted⟩) ?_
    intro eof input span
    rw [skimCall, take?_cons]
termination_by (input.length, 6)
decreasing_by all_goals omega

theorem arguments_ends (input : List Token) :
    Ending (Derivable .arguments) (fun eof input => skim (arguments eof input)) input := by
  have others (rest : List Token) (left : skim (expression 0 input) = .ok rest) :
      Ending (Perhaps .comma (Derivable .arguments))
        (fun eof => perhaps .comma fun rest => skim (arguments eof rest)) rest := by
    have shorter : rest.length < input.length := fits_of_skim left
    refine .perhaps fun comma after same => ?_
    have : rest.length = after.length + 1 := congrArg List.length same
    exact arguments_ends after
  refine .andThen (expression_ends input) others ⟨[], .inl rfl⟩ ?_ skim_arguments
  rintro first _ whole (rfl | ⟨comma, others, rfl, whole'⟩)
  · rw [List.append_nil]
    exact whole.oneArgument
  · exact whole.moreArguments comma whole'
termination_by (input.length, 5)
decreasing_by all_goals omega

theorem indexer_ends (input : List Token) :
    Ending (Behind .openBracket (Derivable .indexer)) skimIndexer input := by
  refine .andThen (expression_ends input) (fun after _ => mark_ends .closeBracket .closingBracket after)
    ⟨_, .unplaced, rfl⟩ ?_ fun eof input => rfl
  rintro index _ whole ⟨closing, rfl⟩ opening
  exact whole.brackets opening closing
termination_by (input.length, 5)
decreasing_by all_goals omega

end

/-! ## The first impossible token -/

section
variable {eof : Nat} {tokens : List Token}

theorem complete_of_stopped {cause : SyntaxError} (stopped : skim (expression eof tokens) = .error cause) :
    complete eof tokens = .error cause := by
  rw [complete]
  rcases run : expression eof tokens with cause' | ⟨e, rest, fit⟩ <;> rw [run] at stopped
  · exact congrArg Except.error (Except.error.inj stopped)
  · cases stopped

theorem complete_of_left {found : Token} {rest : List Token}
    (left : skim (expression eof tokens) = .ok (found :: rest)) :
    complete eof tokens = .error (.unexpectedToken .endOfExpression found) := by
  rw [complete]
  rcases run : expression eof tokens with cause | ⟨e, rest', fit⟩ <;> rw [run] at left
  · cases left
  · obtain rfl := Except.ok.inj left
    rfl

theorem not_derivable_of_refused {error : SyntaxError} (refused : complete eof tokens = .error error) :
    ¬ Derivable .expression tokens := by
  intro derivable
  obtain ⟨e, derived⟩ := derivable.tree rfl
  rw [complete_of_derives eof derived] at refused
  cases refused

end

/-- A list of tokens forms an expression, or goes wrong at a token, or ends too early. -/
theorem complete_ends (eof : Nat) (tokens : List Token) :
    (∃ e, complete eof tokens = .ok e) ∨
    (∃ front found back expected, tokens = front ++ found :: back ∧
      complete eof tokens = .error (.unexpectedToken expected found) ∧
      Viable .expression front ∧ ¬ Viable .expression (front ++ [found])) ∨
    (∃ expected, complete eof tokens = .error (.unexpectedEnd expected (.point eof)) ∧
      Viable .expression tokens ∧ ¬ Derivable .expression tokens) := by
  cases expression_ends tokens with
  | done front rest whole again =>
    cases rest with
    | nil =>
      obtain ⟨e, derived⟩ := whole.tree rfl
      rw [List.append_nil]
      exact .inl ⟨e, complete_of_derives eof derived⟩
    | cons found back =>
      have left (back : List Token) := again eof front (found :: back) rfl rfl
      refine .inr (.inl ⟨front, found, back, .endOfExpression, rfl, complete_of_left (left back),
        whole.viable, ?_⟩)
      rintro ⟨more, derivable⟩
      rw [List.append_assoc, List.singleton_append] at derivable
      exact not_derivable_of_refused (complete_of_left (left more)) derivable
  | stuck front rest expected begun again =>
    cases rest with
    | nil =>
      have stopped := complete_of_stopped (again eof front [] rfl rfl)
      rw [List.append_nil] at stopped ⊢
      exact .inr (.inr ⟨expected, stopped, begun, not_derivable_of_refused stopped⟩)
    | cons found back =>
      have stopped (back : List Token) := complete_of_stopped (again eof front (found :: back) rfl rfl)
      refine .inr (.inl ⟨front, found, back, expected, rfl, stopped back, begun, ?_⟩)
      rintro ⟨more, derivable⟩
      rw [List.append_assoc, List.singleton_append] at derivable
      exact not_derivable_of_refused (stopped more) derivable

end Parser

/-- An error stands at the first token with which the tokens so far can no longer be completed to an
expression, or at the end of the source if more tokens could complete all of them. -/
theorem first_impossible_token {source : String} {tokens : List Token} {error : SyntaxError}
    (read : Lexer.tokens source = .ok tokens) (refused : Expr.parse source = .error error) :
    (∀ expected found, error = .unexpectedToken expected found →
      ∃ k : Nat, tokens[k]? = some found ∧ error.span = found.span ∧
        error.message = s!"expected {expected.describe}, found {found.kind.describe}" ∧
        Viable .expression (tokens.take k) ∧ ¬ Viable .expression (tokens.take (k + 1))) ∧
    (∀ expected span, error = .unexpectedEnd expected span →
      ¬ Derivable .expression tokens ∧ Viable .expression tokens ∧
        span = .point (Text.bytes source.toList)) := by
  by_cases long : Span.offsetLimit < Text.bytes source.toList
  · obtain rfl := Except.error.inj (refused.symm.trans (Expr.parse_of_long read long))
    exact ⟨nofun, nofun⟩
  rw [Expr.parse_eq_complete read (by omega)] at refused
  rcases Parser.complete_ends (Text.bytes source.toList) tokens with
    ⟨e, whole⟩ | ⟨front, found, back, expected, rfl, wrong, begun, impossible⟩ |
    ⟨expected, early, begun, unfinished⟩
  · cases refused.symm.trans whole
  · obtain rfl := Except.error.inj (refused.symm.trans wrong)
    refine ⟨?_, nofun⟩
    rintro _ _ ⟨rfl, rfl⟩
    refine ⟨front.length, by simp, rfl, rfl, ?_, ?_⟩
    · rwa [List.take_left]
    · rwa [List.take_length_add_append, List.take_succ_cons, List.take_zero]
  · obtain rfl := Except.error.inj (refused.symm.trans early)
    refine ⟨nofun, ?_⟩
    rintro _ _ ⟨rfl, rfl⟩
    exact ⟨unfinished, begun, rfl⟩

/-- The parenthesis that closes nothing is impossible, the name in front of it is not. -/
theorem first_impossible_token_closing :
    Lexer.tokens "a)" = .ok [⟨.name "a", ⟨0, 1⟩⟩, ⟨.closeParen, ⟨1, 2⟩⟩] ∧
    Expr.parse "a)" = .error (.unexpectedToken .endOfExpression ⟨.closeParen, ⟨1, 2⟩⟩) ∧
    ∃ k : Nat, [⟨.name "a", ⟨0, 1⟩⟩, ⟨.closeParen, ⟨1, 2⟩⟩][k]? = some (⟨.closeParen, ⟨1, 2⟩⟩ : Token) ∧
      ¬ Viable .expression ([⟨.name "a", ⟨0, 1⟩⟩, ⟨.closeParen, ⟨1, 2⟩⟩].take (k + 1)) := by
  have read : Lexer.tokens "a)" = .ok [⟨.name "a", ⟨0, 1⟩⟩, ⟨.closeParen, ⟨1, 2⟩⟩] := by
    simp [Lexer.tokens, Lexer.scan, Lexer.isGap, Lexer.reach, Lexer.isNameStart, Lexer.isNamePart, isDigit,
      Lexer.ofLexeme?, Lexer.ofMark?, Lexer.ofName, Lexer.run, Span.ofRange, Span.offsetLimit,
      Text.bytes, Except.map, Char.utf8Size]
  have refused : Expr.parse "a)" = .error (.unexpectedToken .endOfExpression ⟨.closeParen, ⟨1, 2⟩⟩) := by
    simp [Expr.parse, read, bind, Except.bind, Parser.complete, Parser.expression, Parser.chain,
      Parser.primary, Parser.segment, Parser.segments, Parser.take?, Parser.ofChain, Text.bytes,
      Span.ofRange, Span.offsetLimit, Char.utf8Size]
  obtain ⟨k, found, _, _, _, impossible⟩ := (first_impossible_token read refused).1 _ _ rfl
  exact ⟨read, refused, k, found, impossible⟩

end DotChain
