import DotChain.Expr.Flatten
import DotChain.Proofs.Grammar
import DotChain.Proofs.Lexemes

/-!
# Reading a rendering

The text of an expression reads back as the expression with its chains joined. Main statement:
`Expr.parse_render`. The tokens of a rendering are given by a function on trees (`Expr.kinds`); that the
text is cut into them and that the grammar derives the tree from them are shown apart, each along the
derivation of the tree that was read.
-/

namespace DotChain

open Grammar

/-! ## The tokens of a rendering -/

namespace Expr

/-- Puts the tokens of an assignment in parentheses. -/
def encloseKinds : Expr → List TokenKind → List TokenKind
  | assign .., kinds => .openParen :: (kinds ++ [.closeParen])
  | _, kinds => kinds

/-- The token in front of a segment that stood after a point. -/
def pointKinds (dotted : Bool) : List TokenKind := if dotted then [.dot] else []

mutual

/-- The tokens of the text of an expression. -/
def kinds : Expr → List TokenKind
  | literal value _ => [.literal value]
  | property name dotted _ => pointKinds dotted ++ [.name name]
  | reference name _ => [.hash, .name name]
  | indexer index _ => .openBracket :: (kinds index ++ [.closeBracket])
  | method name args dotted _ =>
    pointKinds dotted ++ .name name :: .openParen :: (argKinds args ++ [.closeParen])
  | assign target value _ => encloseKinds target (kinds target) ++ .equals :: kinds value
  | chain head tail _ => encloseKinds head (kinds head) ++ segmentKinds tail

/-- The tokens of arguments. -/
def argKinds : List Expr → List TokenKind
  | [] => []
  | [arg] => encloseKinds arg (kinds arg)
  | arg :: next :: rest => encloseKinds arg (kinds arg) ++ .comma :: argKinds (next :: rest)

/-- The tokens of segments. -/
def segmentKinds : List Expr → List TokenKind
  | [] => []
  | segment :: rest => encloseKinds segment (kinds segment) ++ segmentKinds rest

end

mutual

/-- The literals of a tree. -/
def literals : Expr → List Literal
  | literal value _ => [value]
  | property .. => []
  | reference .. => []
  | indexer index _ => literals index
  | method _ args _ _ => literalsAll args
  | assign target value _ => literals target ++ literals value
  | chain head tail _ => literals head ++ literalsAll tail

/-- The literals of several trees. -/
def literalsAll : List Expr → List Literal
  | [] => []
  | e :: rest => literals e ++ literalsAll rest

end

/-- The tokens of an expression as a part of a larger one. -/
def operandKinds (e : Expr) : List TokenKind := encloseKinds e e.kinds

private theorem kinds_assign (target value : Expr) (span : Span) :
    (assign target value span).kinds = target.operandKinds ++ .equals :: value.kinds := by
  rw [kinds, operandKinds]

private theorem segmentKinds_cons (first : Expr) (others : List Expr) :
    segmentKinds (first :: others) = first.operandKinds ++ segmentKinds others := by
  rw [segmentKinds, operandKinds]

private theorem renderSegments_cons (first : Expr) (others : List Expr) :
    renderSegments (first :: others) = first.renderOperand ++ renderSegments others := by
  rw [renderSegments, renderOperand]

private theorem argKinds_cons (first : Expr) {others : List Expr} (some : others ≠ []) :
    argKinds (first :: others) = first.operandKinds ++ .comma :: argKinds others := by
  cases others with
  | nil => exact absurd rfl some
  | cons next others => rw [argKinds, operandKinds]

private theorem renderArgs_cons (first : Expr) {others : List Expr} (some : others ≠ []) :
    renderArgs (first :: others) = first.renderOperand ++ "," ++ renderArgs others := by
  cases others with
  | nil => exact absurd rfl some
  | cons next others => rw [renderArgs, renderOperand]

end Expr

/-! ## The grammar derives the tree -/

namespace Grammar

/-- Tokens of the given kinds that stand nowhere. -/
def unplaced (kinds : List TokenKind) : List Token := kinds.map fun kind => ⟨kind, .unplaced⟩

@[simp] theorem unplaced_nil : unplaced [] = [] := rfl

@[simp] theorem unplaced_cons (kind : TokenKind) (kinds : List TokenKind) :
    unplaced (kind :: kinds) = ⟨kind, .unplaced⟩ :: unplaced kinds := rfl

@[simp] theorem unplaced_append (left right : List TokenKind) :
    unplaced (left ++ right) = unplaced left ++ unplaced right := List.map_append

private theorem kinds_unplaced (kinds : List TokenKind) : (unplaced kinds).map Token.kind = kinds := by
  rw [unplaced, List.map_map]
  exact List.map_id kinds

/-- As an operand, the text of a tree is that of a primary and of links: those of the flat tree. -/
def Operand (e : Expr) : Prop :=
  ∃ left right head tail, unplaced e.operandKinds = left ++ right ∧
    Derives .primary left [head] ∧ Derives .links right tail ∧ head.segmentCount? = none ∧
    (Parser.ofChain head tail).shape = e.flatten.shape

/-- The text of a tree is derived with the flat tree, alone and as an operand. -/
def Reread (e : Expr) : Prop :=
  (∃ e', Derives .expression (unplaced e.kinds) [e'] ∧ e'.shape = e.flatten.shape) ∧ Operand e

/-- After some tokens, the text of a tree is that of a phrase that begins no chain. -/
def Part (phrase : Nonterminal) (front : List TokenKind) (e : Expr) : Prop :=
  ∃ own e', e.kinds = front ++ own ∧ e.operandKinds = front ++ own ∧
    Derives phrase (unplaced own) [e'] ∧ e'.segmentCount? = none ∧ e'.shape = e.flatten.shape

/-- What the texts of the trees of a phrase are derived as. -/
def Rereads : Nonterminal → List Expr → Prop
  | .links, es => ∃ es', Derives .links (unplaced (Expr.segmentKinds es)) es' ∧
    es'.map Expr.shape = es.map fun e => e.flatten.shape
  | .arguments, es => es ≠ [] ∧ ∃ es', Derives .arguments (unplaced (Expr.argKinds es)) es' ∧
    es'.map Expr.shape = es.map fun e => e.flatten.shape
  | .segment dotted, [e] => Part (.segment dotted) (Expr.pointKinds dotted) e
  | .reference, [e] => Part .reference [] e
  | .indexer, [e] => Part .indexer [] e
  | _, [e] => Reread e
  | _, _ => False

private theorem shape_ofChain (head : Expr) (tail : List Expr) : (Parser.ofChain head tail).shape =
    if tail = [] then head.shape else .chain head.shape (tail.map Expr.shape) .unplaced := by
  rcases List.eq_nil_or_concat tail with rfl | ⟨middle, last, rfl⟩
  · rfl
  · simp [Parser.ofChain]

private theorem shape_extend {head : Expr} (tail : List Expr) {more : List Expr}
    (simple : head.segmentCount? = none) (some : more ≠ []) :
    (Parser.ofChain head (tail ++ more)).shape =
      (Parser.ofChain head tail).shape.joined (more.map Expr.shape) .unplaced := by
  rw [shape_ofChain, shape_ofChain, if_neg (by simp [some])]
  by_cases none : tail = []
  · rw [if_pos none, none, List.nil_append]
    cases head with
    | chain => cases simple
    | _ => simp [Expr.joined]
  · rw [if_neg none, List.map_append]
    rfl

private theorem links_append {left right : List Token} {front back : List Expr}
    (first : Derives .links left front) (second : Derives .links right back) :
    Derives .links (left ++ right) (front ++ back) := by
  generalize links : Nonterminal.links = phrase at first
  induction first with
  | noLink => exact second
  | dotLink point ofFirst _ _ ih =>
    rw [List.cons_append, List.append_assoc]
    exact .dotLink point ofFirst (ih rfl)
  | indexLink ofFirst _ _ ih =>
    rw [List.append_assoc]
    exact .indexLink ofFirst (ih rfl)
  | _ => cases links

private theorem chain_of_operand {e : Expr} (operand : Operand e) :
    ∃ e', Derives .chain (unplaced e.operandKinds) [e'] ∧ e'.shape = e.flatten.shape := by
  obtain ⟨left, right, head, tail, tokens, ofHead, ofTail, _, shape⟩ := operand
  rw [tokens]
  exact ⟨_, Parser.derives_ofChain ofHead ofTail, shape⟩

private theorem reread_of_operand {e : Expr} (bare : e.operandKinds = e.kinds) (operand : Operand e) :
    Reread e := by
  obtain ⟨e', derived, shape⟩ := chain_of_operand operand
  rw [bare] at derived
  exact ⟨⟨e', .plain derived, shape⟩, operand⟩

private theorem reread_of_part {phrase : Nonterminal} {e : Expr}
    (rule : ∀ {tokens e}, Derives phrase tokens [e] → Derives .primary tokens [e])
    (part : Part phrase [] e) : Reread e := by
  obtain ⟨own, e', kinds, operand, derived, simple, shape⟩ := part
  refine reread_of_operand (operand.trans kinds.symm)
    ⟨unplaced own, [], e', [], ?_, rule derived, .noLink, simple, shape⟩
  rw [operand, List.nil_append, List.append_nil]

theorem rereads_of_derives {phrase : Nonterminal} {tokens : List Token} {es : List Expr}
    (derived : Derives phrase tokens es) : Rereads phrase es := by
  induction derived with
  | plain _ ih => exact ih
  | single _ ih => exact ih
  -- Parentheses leave no node, so what stands in them is written without them.
  | parens _ _ _ ih => exact ih
  | ofReference _ ih => exact reread_of_part .ofReference ih
  | ofSegment _ ih => exact reread_of_part .ofSegment ih
  | ofIndexer _ ih => exact reread_of_part .ofIndexer ih
  | @assignment left right target value sign _ _ ofTarget ofValue =>
    obtain ⟨target', derived, sameTarget⟩ := chain_of_operand ofTarget.2
    obtain ⟨value', derived', sameValue⟩ := ofValue.1
    have assignment := Derives.assignment .unplaced derived derived'
    have shape : (Expr.assign target' value' (target'.span.merge value'.span)).shape =
        (Expr.assign target value (target.span.merge value.span)).flatten.shape := by
      simp [Expr.flatten, sameTarget, sameValue]
    rw [← unplaced_cons, ← unplaced_append, ← Expr.kinds_assign target value
      (target.span.merge value.span)] at assignment
    -- As an operand, an assignment stands in parentheses of its own.
    refine ⟨⟨_, assignment, shape⟩, _, [], _, [], ?_, .parens .unplaced .unplaced assignment, .noLink,
      rfl, shape⟩
    rw [Expr.operandKinds, Expr.encloseKinds, unplaced_cons, unplaced_append, List.append_nil]
    rfl
  | @compound left right head last middle _ _ ofHead ofTail =>
    obtain ⟨left, right, head', tail', tokens, ofPrimary, ofLinks, simple, shape⟩ := ofHead.2
    obtain ⟨more, derived, shapes⟩ := ofTail
    -- The links of the head and the links after it become the links of one chain.
    refine reread_of_operand rfl ⟨left, right ++ unplaced (Expr.segmentKinds (middle ++ [last])), head',
      tail' ++ more, ?_, ofPrimary, links_append ofLinks derived, simple, ?_⟩
    · rw [← List.append_assoc, ← tokens]
      exact unplaced_append head.operandKinds _
    · have some : more ≠ [] := by
        rintro rfl
        simp at shapes
      rw [shape_extend tail' simple some, shape, shapes, Expr.flatten_chain, Expr.shape_joined,
        List.map_map]
      rfl
  | noLink => exact ⟨[], .noLink, rfl⟩
  | @dotLink left right first others point _ _ ofFirst ofOthers =>
    obtain ⟨own, first', _, operand, derived, _, shape⟩ := ofFirst
    obtain ⟨others', derived', shapes⟩ := ofOthers
    refine ⟨first' :: others', ?_, by simp [shape, shapes]⟩
    rw [Expr.segmentKinds_cons, operand, unplaced_append]
    exact .dotLink .unplaced derived derived'
  | @indexLink left right first others _ _ ofFirst ofOthers =>
    obtain ⟨own, first', _, operand, derived, _, shape⟩ := ofFirst
    obtain ⟨others', derived', shapes⟩ := ofOthers
    refine ⟨first' :: others', ?_, by simp [shape, shapes]⟩
    rw [Expr.segmentKinds_cons, operand, unplaced_append]
    exact .indexLink derived derived'
  | literal value span =>
    exact reread_of_operand rfl ⟨_, [], _, [], rfl, .literal value .unplaced, .noLink, rfl, rfl⟩
  | property text span dotted => exact ⟨_, _, rfl, rfl, .property text .unplaced dotted, rfl, rfl⟩
  | emptyCall text span opening closing dotted =>
    exact ⟨_, _, rfl, rfl, .emptyCall text .unplaced .unplaced .unplaced dotted, rfl, by simp⟩
  | @call tokens args text span opening closing dotted _ ofArgs =>
    obtain ⟨_, args', derived, shapes⟩ := ofArgs
    refine ⟨.name text :: .openParen :: (Expr.argKinds args ++ [.closeParen]),
      .method text args' dotted (Span.unplaced.merge .unplaced), rfl, rfl, ?_, rfl, ?_⟩
    · rw [unplaced_cons, unplaced_cons, unplaced_append]
      exact .call text .unplaced .unplaced .unplaced dotted derived
    · simp [shapes]
  | hash text mark span => exact ⟨_, _, rfl, rfl, .hash text .unplaced .unplaced, rfl, rfl⟩
  | @brackets tokens index opening closing _ ofIndex =>
    obtain ⟨index', derived, shape⟩ := ofIndex.1
    refine ⟨.openBracket :: (index.kinds ++ [.closeBracket]),
      .indexer index' (Span.unplaced.merge .unplaced), rfl, rfl, ?_, rfl, ?_⟩
    · rw [unplaced_cons, unplaced_append]
      exact .brackets .unplaced .unplaced derived
    · simp [Expr.flatten, shape]
  | @oneArgument tokens e _ ih =>
    obtain ⟨e', derived, shape⟩ := chain_of_operand ih.2
    exact ⟨by simp, [e'], .oneArgument (.plain derived), by simp [shape]⟩
  | @moreArguments left right first others comma _ _ ofFirst ofOthers =>
    obtain ⟨first', derived, shape⟩ := chain_of_operand ofFirst.2
    obtain ⟨some, others', derived', shapes⟩ := ofOthers
    refine ⟨by simp, first' :: others', ?_, by simp [shape, shapes]⟩
    rw [Expr.argKinds_cons first some, unplaced_append, unplaced_cons]
    exact .moreArguments .unplaced (.plain derived) derived'

end Grammar

/-! ## The text is cut into the tokens -/

namespace Lexer

/-- A text is cut into lexemes of the given kinds, whatever comes next without continuing it. -/
def Spelled (text : List Char) (kinds : List TokenKind) : Prop :=
  ∀ rest later, Stops rest → Lexes rest later → Lexes (text ++ rest) (kinds ++ later)

/-- The text of a tree is cut into its tokens. -/
def Spells (e : Expr) : Prop := Spelled e.render.toList e.kinds

/-- The text of a tree is cut into its tokens and may come after anything; it has no parentheses of its
own as an operand. -/
structure Follows (e : Expr) : Prop where
  spells : Spells e
  bare : e.renderOperand = e.render ∧ e.operandKinds = e.kinds
  stops : ∀ rest, Stops (e.render.toList ++ rest)

/-- How the texts of the trees of a phrase are cut. -/
def SpellsAll : Nonterminal → List Expr → Prop
  | .links, es => ∀ rest later, Stops rest → Lexes rest later →
    Stops ((Expr.renderSegments es).toList ++ rest) ∧
      Lexes ((Expr.renderSegments es).toList ++ rest) (Expr.segmentKinds es ++ later)
  | .arguments, es => es ≠ [] ∧ Spelled (Expr.renderArgs es).toList (Expr.argKinds es)
  | .segment true, [e] | .indexer, [e] => Follows e
  | _, [e] => Spells e
  | _, _ => False

section
variable {text : List Char} {kinds : List TokenKind}

private theorem spelled_nothing : Spelled [] [] := fun _ _ _ lexes => lexes

private theorem spelled_mark (c : Char) {kind : TokenKind} (stands : ofMark? c = some kind)
    (spelled : Spelled text kinds) : Spelled (c :: text) (kind :: kinds) := by
  intro rest later stops others
  exact lexes_mark stands (spelled rest later stops others)

/-- A text may be followed by a mark that continues nothing and another text. -/
private theorem spelled_between (c : Char) {kind : TokenKind} {after : List Char} {others : List TokenKind}
    (stands : ofMark? c = some kind) (point : c ≠ '.') (spelled : Spelled text kinds)
    (next : Spelled after others) : Spelled (text ++ c :: after) (kinds ++ kind :: others) := by
  intro rest later stops lexes
  have part : isNamePart c = false ∧ c ≠ '\'' := by
    unfold ofMark? at stands
    split at stands <;> first | exact ⟨rfl, by decide⟩ | cases stands
  rw [List.append_assoc, List.append_assoc]
  exact spelled _ _ (stops_cons _ part.1 part.2 point) (lexes_mark stands (next rest later stops lexes))

private theorem spelled_name {name : String} (isName : IsName name.toList) :
    Spelled name.toList [.name name] := by
  intro rest later stops others
  have lexes := lexes_name isName stops others
  rw [String.ofList_toList] at lexes
  exact lexes

private theorem spelled_operand {e : Expr} (spells : Spells e) :
    Spelled e.renderOperand.toList e.operandKinds := by
  cases e with
  | assign target value span =>
    have text : (Expr.assign target value span).renderOperand.toList =
        '(' :: ((Expr.assign target value span).render.toList ++ [')']) := by
      simp [Expr.renderOperand, Expr.enclose]
    rw [text]
    exact spelled_mark '(' rfl (spelled_between ')' rfl (by decide) spells spelled_nothing)
  | _ => exact spells

private theorem spelled_call {name : String} (isName : IsName name.toList)
    (spelled : Spelled text kinds) : Spelled (name.toList ++ '(' :: (text ++ [')']))
      (.name name :: .openParen :: (kinds ++ [.closeParen])) :=
  spelled_between '(' rfl (by decide) (spelled_name isName)
    (spelled_between ')' rfl (by decide) spelled spelled_nothing)

end

/-- Every name among tokens is one. -/
def AllGenuine (tokens : List Token) : Prop := ∀ token ∈ tokens, Genuine token.kind

/-- Every floating point literal of trees is finite. -/
def AllFinite (es : List Expr) : Prop := ∀ e ∈ es, ∀ x, .float x ∈ e.literals → x.isFinite = true

private theorem allGenuine_cons {token : Token} {tokens : List Token} :
    AllGenuine (token :: tokens) ↔ Genuine token.kind ∧ AllGenuine tokens := by
  simp [AllGenuine]

private theorem allGenuine_append {left right : List Token} :
    AllGenuine (left ++ right) ↔ AllGenuine left ∧ AllGenuine right := by
  simp only [AllGenuine, List.mem_append]
  constructor
  · intro all
    exact ⟨fun token member => all token (.inl member), fun token member => all token (.inr member)⟩
  · rintro ⟨first, second⟩ token (front | back)
    · exact first token front
    · exact second token back

private theorem allFinite_cons {e : Expr} {es : List Expr} :
    AllFinite (e :: es) ↔ AllFinite [e] ∧ AllFinite es := by
  simp [AllFinite]

private theorem mem_literalsAll {value : Literal} {es : List Expr} :
    value ∈ Expr.literalsAll es ↔ ∃ e ∈ es, value ∈ e.literals := by
  induction es with
  | nil => simp [Expr.literalsAll]
  | cons e es ih => simp [Expr.literalsAll, ih]

private theorem allFinite_assign {target value : Expr} {span : Span}
    (finite : AllFinite [.assign target value span]) : AllFinite [target] ∧ AllFinite [value] := by
  simp only [AllFinite, List.mem_singleton, forall_eq, Expr.literals, List.mem_append] at *
  exact ⟨fun x member => finite x (.inl member), fun x member => finite x (.inr member)⟩

private theorem allFinite_all {e : Expr} {es : List Expr} (finite : AllFinite [e])
    (part : ∀ value, value ∈ Expr.literalsAll es → value ∈ e.literals) : AllFinite es := by
  intro other member x inside
  exact finite e List.mem_cons_self x (part _ (mem_literalsAll.mpr ⟨other, member, inside⟩))

private theorem allFinite_chain {head : Expr} {tail : List Expr} {span : Span}
    (finite : AllFinite [.chain head tail span]) : AllFinite [head] ∧ AllFinite tail := by
  refine ⟨?_, allFinite_all finite fun value member => List.mem_append_right _ member⟩
  refine allFinite_all finite fun value member => List.mem_append_left _ ?_
  simpa [Expr.literalsAll] using member

/-- A segment is its own text, perhaps after a point. -/
private theorem spells_segment {e : Expr} {dotted : Bool} {c : Char} {own : List Char}
    {kinds : List TokenKind} (start : isNameStart c = true) (spelled : Spelled (c :: own) kinds)
    (text : e.render.toList = (Expr.point dotted).toList ++ c :: own)
    (tokens : e.kinds = Expr.pointKinds dotted ++ kinds)
    (bare : e.renderOperand = e.render ∧ e.operandKinds = e.kinds) : SpellsAll (.segment dotted) [e] := by
  cases dotted with
  | false =>
    change Spells e
    rw [Spells, text, tokens]
    exact spelled
  | true =>
    have own_ : e.render.toList = '.' :: c :: own := text
    refine ⟨?_, bare, fun rest => ?_⟩
    · rw [Spells, own_, tokens]
      exact spelled_mark '.' rfl spelled
    · rw [own_]
      exact notDigit_start start

private theorem spells_call {name : String} {args : List Expr} (dotted : Bool) (span : Span)
    (isName : IsName name.toList) (spelled : Spelled (Expr.renderArgs args).toList (Expr.argKinds args)) :
    SpellsAll (.segment dotted) [.method name args dotted span] := by
  obtain ⟨c, own, spelling, start, _⟩ := isName.spelled
  have call := spelled_call isName spelled
  rw [spelling, List.cons_append] at call
  refine spells_segment start call ?_ rfl ⟨rfl, rfl⟩
  simp [Expr.render, spelling]

private theorem spells_link {first : Expr} {others : List Expr} (follows : Follows first)
    (links : SpellsAll .links others) : SpellsAll .links (first :: others) := by
  intro rest later stops lexes
  obtain ⟨stops', lexes'⟩ := links rest later stops lexes
  rw [Expr.renderSegments_cons, follows.bare.1, String.toList_append, List.append_assoc,
    Expr.segmentKinds_cons, follows.bare.2, List.append_assoc]
  exact ⟨follows.stops _, follows.spells _ _ stops' lexes'⟩

theorem spells_of_derives {phrase : Nonterminal} {tokens : List Token} {es : List Expr}
    (derived : Derives phrase tokens es) : AllGenuine tokens → AllFinite es → SpellsAll phrase es := by
  induction derived with
  | plain _ ih => exact ih
  | single _ ih => exact ih
  | parens _ _ _ ih =>
    intro genuine finite
    exact ih (allGenuine_append.mp (allGenuine_cons.mp genuine).2).1 finite
  | ofReference _ ih => exact ih
  | ofSegment _ ih => exact ih
  | ofIndexer _ ih => exact fun genuine finite => (ih genuine finite).spells
  | @assignment left right target value sign _ _ ofTarget ofValue =>
    intro genuine finite rest later stops others
    obtain ⟨front, back⟩ := allGenuine_append.mp genuine
    obtain ⟨first, second⟩ := allFinite_assign finite
    have spelled := ofValue (allGenuine_cons.mp back).2 second rest later stops others
    have sign : Lexes (' ' :: '=' :: ' ' :: (value.render.toList ++ rest))
        (.equals :: (value.kinds ++ later)) := .gap rfl (lexes_mark rfl (.gap rfl spelled))
    have stops' : Stops (' ' :: '=' :: ' ' :: (value.render.toList ++ rest)) :=
      stops_cons _ rfl (by decide) (by decide)
    have target := spelled_operand (ofTarget front first) _ _ stops' sign
    simpa [Expr.render, Expr.kinds, Expr.renderOperand, Expr.operandKinds] using target
  | @compound left right head last middle _ _ ofHead ofTail =>
    intro genuine finite rest later stops others
    obtain ⟨front, back⟩ := allGenuine_append.mp genuine
    obtain ⟨first, second⟩ := allFinite_chain finite
    obtain ⟨stops', others'⟩ := ofTail back second rest later stops others
    have lexes := spelled_operand (ofHead front first) _ _ stops' others'
    simpa [Expr.render, Expr.kinds, Expr.renderOperand, Expr.operandKinds] using lexes
  | noLink => exact fun _ _ rest later stops others => ⟨stops, others⟩
  | @dotLink left right first others point _ _ ofFirst ofOthers =>
    intro genuine finite
    obtain ⟨front, back⟩ := allGenuine_append.mp (allGenuine_cons.mp genuine).2
    obtain ⟨ofOne, ofMore⟩ := allFinite_cons.mp finite
    exact spells_link (ofFirst front ofOne) (ofOthers back ofMore)
  | @indexLink left right first others _ _ ofFirst ofOthers =>
    intro genuine finite
    obtain ⟨front, back⟩ := allGenuine_append.mp genuine
    obtain ⟨ofOne, ofMore⟩ := allFinite_cons.mp finite
    exact spells_link (ofFirst front ofOne) (ofOthers back ofMore)
  | literal value span =>
    intro _ finite rest later stops others
    have isFinite : ∀ x, value = .float x → x.isFinite = true := by
      rintro x rfl
      exact finite _ List.mem_cons_self x List.mem_cons_self
    exact lexes_literal isFinite stops others
  | property text span dotted =>
    intro genuine _
    have isName : IsName text.toList := (allGenuine_cons.mp genuine).1
    obtain ⟨c, own, spelling, start, _⟩ := isName.spelled
    refine spells_segment start (spelling ▸ spelled_name isName) ?_ rfl ⟨rfl, rfl⟩
    rw [Expr.render, String.toList_append, spelling]
  | emptyCall text span opening closing dotted =>
    intro genuine _
    exact spells_call dotted _ (allGenuine_cons.mp genuine).1 spelled_nothing
  | call text span opening closing dotted _ ofArgs =>
    intro genuine finite
    obtain ⟨isName, _, inner⟩ := allGenuine_cons.mp genuine |>.imp id allGenuine_cons.mp
    have args := (ofArgs (allGenuine_append.mp inner).1 (allFinite_all finite fun _ member => member)).2
    exact spells_call dotted _ isName args
  | hash text mark span =>
    intro genuine _
    have isName : IsName text.toList := (allGenuine_cons.mp (allGenuine_cons.mp genuine).2).1
    have spelled := spelled_mark '#' rfl (spelled_name isName)
    simpa [SpellsAll, Spells, Expr.render, Expr.kinds] using spelled
  | @brackets tokens index opening closing _ ofIndex =>
    intro genuine finite
    have spells := ofIndex (allGenuine_append.mp (allGenuine_cons.mp genuine).2).1
      (allFinite_all finite fun value member => by simpa [Expr.literals, Expr.literalsAll] using member)
    have text : (Expr.indexer index (opening.merge closing)).render.toList =
        '[' :: (index.render.toList ++ [']']) := by
      simp [Expr.render]
    refine ⟨?_, ⟨rfl, rfl⟩, fun rest => ?_⟩
    · rw [Spells, text]
      exact spelled_mark '[' rfl (spelled_between ']' rfl (by decide) spells spelled_nothing)
    · rw [text]
      exact stops_cons _ rfl (by decide) (by decide)
  | oneArgument _ ih =>
    intro genuine finite
    exact ⟨by simp, spelled_operand (ih genuine finite)⟩
  | @moreArguments left right first others comma _ _ ofFirst ofOthers =>
    intro genuine finite
    obtain ⟨front, back⟩ := allGenuine_append.mp genuine
    obtain ⟨ofOne, ofMore⟩ := allFinite_cons.mp finite
    obtain ⟨some, more⟩ := ofOthers (allGenuine_cons.mp back).2 ofMore
    refine ⟨by simp, ?_⟩
    have spelled := spelled_between ',' rfl (by decide) (spelled_operand (ofFirst front ofOne)) more
    rw [Expr.renderArgs_cons first some, Expr.argKinds_cons first some]
    simpa using spelled

end Lexer

/-! ## Sources -/

namespace Expr

/-- The text of an expression that was read reads back as its flat form, which has the same text. The
text must not be too long, and its floating point literals must be finite. -/
theorem parse_render {source : String} {e : Expr} (parsed : parse source = .ok e)
    (finite : ∀ x, .float x ∈ e.literals → x.isFinite = true)
    (short : Text.bytes e.render.toList ≤ Span.offsetLimit) :
    ∃ e', parse e.render = .ok e' ∧ e'.shape = e.flatten.shape ∧ e'.render = e.render := by
  obtain ⟨tokens, read, derived⟩ := of_parse parsed
  have genuine : Lexer.AllGenuine tokens := by
    intro token member
    exact Lexer.genuine_of_lexes (Lexer.lexes_of_scan read) _ (List.mem_map_of_mem member)
  have allFinite : Lexer.AllFinite [e] := by
    intro other member
    rw [List.mem_singleton.mp member]
    exact finite
  have spells : Lexer.Spells e := Lexer.spells_of_derives derived genuine allFinite
  have lexes := spells [] [] trivial .nothing
  rw [List.append_nil, List.append_nil] at lexes
  obtain ⟨tokens', read', kinds⟩ := Lexer.scan_of_lexes lexes 0 (by omega)
  obtain ⟨⟨flat, ofFlat, sameFlat⟩, _⟩ := rereads_of_derives derived
  obtain ⟨es', derived', shapes⟩ := derives_carries ofFlat tokens' (by rw [kinds, kinds_unplaced])
  obtain ⟨e', rfl, sameShape⟩ := List.map_eq_singleton_iff.mp shapes
  have shape : e'.shape = e.flatten.shape := sameShape.trans sameFlat
  refine ⟨e', parse_of_derives read' short derived', shape, ?_⟩
  rw [← render_shape e', shape, render_shape, render_flatten]

/-- The number 1.5. -/
private def oneAndHalf : Binary64 := Binary64.ofRatio false 3 2

/-- A chain in parentheses that is continued: `(a.b)[1.5].c`. -/
private def continued : Expr :=
  .chain (.chain (.property "a" false ⟨1, 2⟩) [.property "b" true ⟨3, 4⟩] ⟨1, 4⟩)
    [.indexer (.literal (.float oneAndHalf) ⟨6, 9⟩) ⟨5, 10⟩,
      .property "c" true ⟨11, 12⟩] ⟨1, 12⟩

theorem parse_render_continued :
    parse "(a.b)[1.5].c" = .ok continued ∧
    (∀ x, .float x ∈ continued.literals → x.isFinite = true) ∧
    Text.bytes continued.render.toList ≤ Span.offsetLimit ∧
    ∃ e', parse continued.render = .ok e' ∧ e'.shape = continued.flatten.shape ∧
      e'.render = continued.render := by
  have value : Binary64.ofText? ['1', '.', '5'] = some oneAndHalf := by decide +kernel
  have tokens : Lexer.scan 0 "(a.b)[1.5].c".toList = .ok [⟨.openParen, ⟨0, 1⟩⟩, ⟨.name "a", ⟨1, 2⟩⟩,
      ⟨.dot, ⟨2, 3⟩⟩, ⟨.name "b", ⟨3, 4⟩⟩, ⟨.closeParen, ⟨4, 5⟩⟩, ⟨.openBracket, ⟨5, 6⟩⟩,
      ⟨.literal (.float oneAndHalf), ⟨6, 9⟩⟩, ⟨.closeBracket, ⟨9, 10⟩⟩,
      ⟨.dot, ⟨10, 11⟩⟩, ⟨.name "c", ⟨11, 12⟩⟩] := by
    simp [Lexer.scan, Lexer.isGap, Lexer.reach, Lexer.isNameStart, Lexer.isNamePart, isDigit,
      Lexer.ofLexeme?, Lexer.ofMark?, Lexer.ofNumber?, Lexer.ofName, Lexer.numberReach, Lexer.run,
      Lexer.fractionReach, Lexer.exponentReach, value, Span.ofRange, Span.offsetLimit, Text.bytes,
      Except.map, Char.utf8Size]
  have head := Parser.derives_ofChain (.ofSegment (.property "a" ⟨1, 2⟩ false))
    (.dotLink ⟨2, 3⟩ (.property "b" ⟨3, 4⟩ true) .noLink)
  have index := Derives.literal (.float oneAndHalf) ⟨6, 9⟩
  have whole := Parser.derives_ofChain (.parens ⟨0, 1⟩ ⟨4, 5⟩ (.plain head))
    (.indexLink (.brackets ⟨5, 6⟩ ⟨9, 10⟩ (.plain (.single index)))
      (.dotLink ⟨10, 11⟩ (.property "c" ⟨11, 12⟩ true) .noLink))
  have parsed : parse "(a.b)[1.5].c" = .ok continued := parse_of_derives tokens (by decide) (.plain whole)
  have finite : ∀ x, .float x ∈ continued.literals → x.isFinite = true := by
    intro x member
    have same : x = oneAndHalf := by
      simpa [continued, literals, literalsAll] using member
    rw [same]
    decide +kernel
  have short : Text.bytes continued.render.toList ≤ Span.offsetLimit := by decide +kernel
  exact ⟨parsed, finite, short, parse_render parsed finite short⟩

end Expr

end DotChain
