import DotChain.Proofs.Excerpts
import DotChain.Text.Slice

/-!
# Parentheses in a source text

Parentheses leave no node, and a tree does not reach over those that stand around all of it. A chain or an
assignment is placed from its first part to its last one, and so begins or ends inside the parentheses around
such a part. Main statement: `Expr.root_reads_alone`, of the tokens of a source text a tree leaves out opening
parentheses in front and closing ones behind, and the text that it reaches over reads as the same tree exactly if
the parentheses in it are paired. A phrase is paired (`Grammar.paired_of_derives`); what a tree reaches over is
the whole phrase, if it is paired and is not enclosed (`Grammar.extent_of_derives`).
-/

namespace DotChain

open Grammar

/-! ## Depths -/

/-- How many parentheses are open behind a token, if so many were open before it. A parenthesis that is not
open cannot be closed. -/
def TokenKind.depthBehind (depth : Nat) : TokenKind → Option Nat
  | .openParen => some (depth + 1)
  | .closeParen => if depth = 0 then none else some (depth - 1)
  | _ => some depth

/-- Where more parentheses are open before a token, as many more are open behind it. -/
theorem TokenKind.depthBehind_add {depth next : Nat} (kind : TokenKind) (outside : Nat)
    (step : kind.depthBehind depth = some next) : kind.depthBehind (outside + depth) = some (outside + next) := by
  cases kind with
  | openParen =>
    obtain rfl := Option.some.inj step
    rfl
  | closeParen =>
    simp only [depthBehind] at step ⊢
    split at step
    · cases step
    · obtain rfl := Option.some.inj step
      rw [if_neg (by omega), Nat.add_sub_assoc (by omega)]
  | _ =>
    obtain rfl := Option.some.inj step
    rfl

/-- How many parentheses are open behind some tokens. -/
def depthBehind (depth : Nat) (tokens : List Token) : Option Nat :=
  tokens.foldlM (fun depth token => token.kind.depthBehind depth) depth

/-- Each parenthesis that is opened is closed, and no other is. -/
def Paired (tokens : List Token) : Prop := depthBehind 0 tokens = some 0

instance : DecidablePred Paired := fun tokens => inferInstanceAs (Decidable (depthBehind 0 tokens = some 0))

section
variable {depth reached : Nat} {tokens left right front rest back : List Token}

@[simp] theorem depthBehind_nil (depth : Nat) : depthBehind depth [] = some depth := rfl

@[simp] theorem depthBehind_cons (depth : Nat) (token : Token) (tokens : List Token) :
    depthBehind depth (token :: tokens) =
      (token.kind.depthBehind depth).bind fun depth => depthBehind depth tokens := rfl

@[simp] theorem depthBehind_append (depth : Nat) (left right : List Token) :
    depthBehind depth (left ++ right) = (depthBehind depth left).bind fun depth => depthBehind depth right :=
  List.foldlM_append

/-- Where more parentheses are open before, as many more are open behind. -/
theorem depthBehind_add (outside : Nat) (reaches : depthBehind depth tokens = some reached) :
    depthBehind (outside + depth) tokens = some (outside + reached) := by
  induction tokens generalizing depth with
  | nil => simpa using reaches
  | cons token tokens ih =>
    rw [depthBehind_cons] at reaches ⊢
    obtain ⟨next, first, later⟩ := Option.bind_eq_some_iff.mp reaches
    rw [token.kind.depthBehind_add outside first]
    exact ih later

theorem depthBehind_opened (opened : ∀ token ∈ front, token.kind = .openParen) :
    depthBehind 0 front = some front.length := by
  induction front with
  | nil => rfl
  | cons token front ih =>
    obtain ⟨here, later⟩ := List.forall_mem_cons.mp opened
    have behind := depthBehind_add 1 (ih later)
    rw [depthBehind_cons, here, List.length_cons, Nat.add_comm front.length]
    exact behind

theorem Paired.of_append (paired : Paired left) (whole : Paired (left ++ right)) : Paired right := by
  rw [Paired, depthBehind_append, paired, Option.bind_some] at whole
  exact whole

/-- If what follows closes all that was opened before, and closes nothing else, nothing was opened. -/
theorem Paired.none_opened (whole : Paired (front ++ rest)) (opened : ∀ token ∈ front, token.kind = .openParen)
    (closed : Paired (rest ++ back)) : front = [] ∧ Paired back := by
  have before := depthBehind_opened opened
  rw [Paired, depthBehind_append, before, Option.bind_some] at whole
  rw [Paired, depthBehind_append] at closed
  obtain ⟨depth, behind, later⟩ := Option.bind_eq_some_iff.mp closed
  have outside := depthBehind_add front.length behind
  rw [Nat.add_zero, whole] at outside
  have none : 0 = front.length + depth := Option.some.inj outside
  obtain rfl : depth = 0 := by omega
  exact ⟨List.eq_nil_of_length_eq_zero (by omega), later⟩

theorem Paired.none_closed (paired : Paired back) (closed : ∀ token ∈ back, token.kind = .closeParen) :
    back = [] := by
  cases back with
  | nil => rfl
  | cons token back =>
    have here := closed token List.mem_cons_self
    simp [Paired, TokenKind.depthBehind, here] at paired

/-- Where tokens stand decides nothing about their pairs. -/
theorem paired_shift (offset : Nat) (tokens : List Token) :
    Paired (tokens.map (Token.shift offset)) ↔ Paired tokens := by
  rw [Paired, Paired, depthBehind, List.foldlM_map]
  rfl

end

/-- A phrase leaves open what was open before it, and nothing else. -/
theorem Grammar.depthBehind_of_derives {phrase : Nonterminal} {tokens : List Token} {es : List Expr}
    (derived : Derives phrase tokens es) (depth : Nat) : depthBehind depth tokens = some depth := by
  induction derived generalizing depth with
  | plain _ ih | single _ ih | ofReference _ ih | ofSegment _ ih | ofIndexer _ ih | oneArgument _ ih =>
    exact ih depth
  | noLink | literal | property | emptyCall | hash => rfl
  | compound _ _ ih ih' | indexLink _ _ ih ih' => rw [depthBehind_append, ih, Option.bind_some, ih']
  | assignment _ _ _ ih ih' | dotLink _ _ _ ih ih' | moreArguments _ _ _ ih ih' =>
    simp [TokenKind.depthBehind, ih, ih']
  | parens _ _ _ ih | call _ _ _ _ _ _ ih | brackets _ _ _ ih => simp [TokenKind.depthBehind, ih]

theorem Grammar.paired_of_derives {phrase : Nonterminal} {tokens : List Token} {es : List Expr}
    (derived : Derives phrase tokens es) : Paired tokens :=
  depthBehind_of_derives derived 0

/-! ## What a tree reaches over -/

/-- A tree reaches over some tokens of its phrase. Only opening parentheses stand in front of these, and only
closing ones behind. If they are paired, they form the tree. -/
def Stripped (tokens : List Token) (e : Expr) : Prop :=
  ∃ front used back, tokens = front ++ used ++ back ∧ (∀ token ∈ front, token.kind = .openParen) ∧
    (∀ token ∈ back, token.kind = .closeParen) ∧ Reaches Token.span used e.span ∧
    (Paired used → Derives .expression used [e])

/-- Where the trees of a phrase stand among its tokens. Only an expression, a chain or a primary can stand in
parentheses; a list of links ends where the last one does. -/
def Grammar.Extent : Nonterminal → List Token → List Expr → Prop
  | .expression, tokens, es | .chain, tokens, es | .primary, tokens, es => ∀ e ∈ es, Stripped tokens e
  | .segment _, tokens, es | .reference, tokens, es | .indexer, tokens, es =>
    ∀ e ∈ es, Reaches Token.span tokens e.span
  | .links, tokens, es =>
    ∀ last ∈ es.getLast?, ∃ front used, tokens = front ++ used ∧ Reaches Token.span used last.span
  | .arguments, _, _ => True

/-- A tree that all tokens of a phrase belong to. -/
theorem Stripped.whole {tokens : List Token} {e : Expr} (derived : Derives .primary tokens [e])
    (reaches : Reaches Token.span tokens e.span) : ∀ other ∈ [e], Stripped tokens other :=
  List.forall_mem_singleton.mpr ⟨[], tokens, [], (List.append_nil _).symm, List.forall_mem_nil _,
    List.forall_mem_nil _, reaches, fun _ => .plain (.single derived)⟩

/-- Parentheses around a phrase stand outside of what its tree reaches over. -/
theorem Stripped.enclosed {inner : List Token} {e : Expr} (opening closing : Span) (stripped : Stripped inner e) :
    Stripped (⟨.openParen, opening⟩ :: (inner ++ [⟨.closeParen, closing⟩])) e := by
  obtain ⟨front, used, back, rfl, opened, closed, stands⟩ := stripped
  refine ⟨⟨.openParen, opening⟩ :: front, used, back ++ [⟨.closeParen, closing⟩], by simp, ?_, ?_, stands⟩
  · exact List.forall_mem_cons.mpr ⟨rfl, opened⟩
  · exact List.forall_mem_append.mpr ⟨closed, List.forall_mem_singleton.mpr rfl⟩

theorem Grammar.Extent.links {left right : List Token} {first : Expr} {others : List Expr}
    (ofFirst : Reaches Token.span left first.span) (derived : Derives .links right others)
    (ofOthers : Extent .links right others) : Extent .links (left ++ right) (first :: others) := by
  intro last ends
  cases others with
  | nil =>
    cases derived
    obtain rfl := Option.some.inj ends
    exact ⟨[], left, List.append_nil _, ofFirst⟩
  | cons second others =>
    rw [List.getLast?_cons_cons] at ends
    obtain ⟨front, used, rfl, reaches⟩ := ofOthers last ends
    exact ⟨left ++ front, used, (List.append_assoc ..).symm, reaches⟩

/-- What the first part of a tree reaches over is not paired with what follows if parentheses stand in front. -/
private theorem begins_at_front {phrase : Nonterminal} {front used back rest : List Token} {es : List Expr}
    (derived : Derives phrase (front ++ used ++ back) es) (opened : ∀ token ∈ front, token.kind = .openParen)
    (paired : Paired (used ++ back ++ rest)) : front = [] ∧ Paired rest := by
  have whole := paired_of_derives derived
  rw [List.append_assoc] at whole
  exact whole.none_opened opened paired

/-- A tree leaves out parentheses at the two ends of its phrase, and nothing else. -/
theorem Grammar.extent_of_derives {phrase : Nonterminal} {tokens : List Token} {es : List Expr}
    (derived : Derives phrase tokens es) (order : InOrder Token.span tokens) : Extent phrase tokens es := by
  have behind {token : Token} {rest : List Token} : rest <:+: token :: rest := (List.suffix_cons ..).isInfix
  induction derived with
  | plain _ ih | single _ ih => exact ih order
  | ofReference inner ih => exact .whole (.ofReference inner) (ih order _ List.mem_cons_self)
  | ofSegment inner ih => exact .whole (.ofSegment inner) (ih order _ List.mem_cons_self)
  | ofIndexer inner ih => exact .whole (.ofIndexer inner) (ih order _ List.mem_cons_self)
  | literal value span => exact .whole (.literal value span) (reaches_single _)
  | property name span dotted => exact List.forall_mem_singleton.mpr (reaches_single _)
  | emptyCall name span opening closing dotted =>
    exact List.forall_mem_singleton.mpr (order.reaches_merge rfl rfl)
  | call name span opening closing dotted =>
    exact List.forall_mem_singleton.mpr (order.reaches_merge rfl (List.getLast?_concat (l := _ :: _ :: _)))
  | hash name mark span => exact List.forall_mem_singleton.mpr (order.reaches_merge rfl rfl)
  | brackets opening closing =>
    exact List.forall_mem_singleton.mpr (order.reaches_merge rfl (List.getLast?_concat (l := _ :: _)))
  | oneArgument | moreArguments => trivial
  | noLink => exact fun last ends => nomatch ends
  | dotLink point _ ofOthers ihFirst ihOthers =>
    obtain ⟨ofFirst, ofRest, _⟩ := InOrder.append_iff.mp (order.within behind)
    have extent := Extent.links (ihFirst ofFirst _ List.mem_cons_self) ofOthers (ihOthers ofRest)
    intro last ends
    obtain ⟨front, used, same, reaches⟩ := extent last ends
    exact ⟨⟨.dot, point⟩ :: front, used, congrArg (_ :: ·) same, reaches⟩
  | indexLink _ ofOthers ihFirst ihOthers =>
    obtain ⟨ofFirst, ofRest, _⟩ := InOrder.append_iff.mp order
    exact .links (ihFirst ofFirst _ List.mem_cons_self) ofOthers (ihOthers ofRest)
  | @parens inner e opening closing _ ih =>
    have inside : inner <:+: [⟨.openParen, opening⟩] ++ (inner ++ [⟨.closeParen, closing⟩]) :=
      ⟨_, _, List.append_assoc ..⟩
    have stripped : Stripped inner e := ih (order.within inside) e List.mem_cons_self
    exact List.forall_mem_singleton.mpr (stripped.enclosed opening closing)
  | @assignment left right target value sign ofTarget ofValue ihTarget ihValue =>
    have node := (atRuns_of_derives (.assignment sign ofTarget ofValue) order).root List.mem_cons_self
    obtain ⟨ofLeft, ofRight, _⟩ := InOrder.append_iff.mp order
    obtain ⟨front, used, back, rfl, opened, _, begins, _⟩ := ihTarget ofLeft target List.mem_cons_self
    obtain ⟨front', used', back', rfl, _, closed, ends, _⟩ :=
      ihValue (ofRight.within behind) value List.mem_cons_self
    refine List.forall_mem_singleton.mpr
      ⟨front, used ++ ((back ++ ⟨.equals, sign⟩ :: front') ++ used'), back', by simp, opened, closed, ?_, ?_⟩
    · have place : (target.span.merge value.span) = ⟨target.span.start, value.span.stop⟩ :=
        node.children.merge_eq rfl rfl
      rw [Expr.span, place]
      exact begins.join ends
    · -- parentheses around the target are closed, and those around the value opened, without the others
      intro paired
      have joined : Paired (used ++ back ++ (⟨.equals, sign⟩ :: (front' ++ used'))) := by
        simpa only [List.append_assoc, List.cons_append] using paired
      obtain ⟨rfl, later⟩ := begins_at_front ofTarget opened joined
      have later : Paired (front' ++ used') := later
      obtain rfl := (later.of_append (paired_of_derives ofValue)).none_closed closed
      simpa using Derives.assignment sign ofTarget ofValue
  | @compound left right head last middle ofHead ofTail ihHead ihTail =>
    have node := (atRuns_of_derives (.compound ofHead ofTail) order).root List.mem_cons_self
    obtain ⟨ofLeft, ofRight, _⟩ := InOrder.append_iff.mp order
    obtain ⟨front, used, back, rfl, opened, _, begins, _⟩ := ihHead ofLeft head List.mem_cons_self
    obtain ⟨front', used', rfl, ends⟩ := ihTail ofRight last List.getLast?_concat
    refine List.forall_mem_singleton.mpr
      ⟨front, used ++ ((back ++ front') ++ used'), [], by simp, opened, List.forall_mem_nil _, ?_, ?_⟩
    · have place : (head.span.merge last.span) = ⟨head.span.start, last.span.stop⟩ :=
        node.children.merge_eq rfl (List.getLast?_concat (l := head :: middle))
      rw [Expr.span, place]
      exact begins.join ends
    · intro paired
      have joined : Paired (used ++ back ++ (front' ++ used')) := by
        simpa only [List.append_assoc] using paired
      obtain ⟨rfl, _⟩ := begins_at_front ofHead opened joined
      simpa using Derives.plain (.compound ofHead ofTail)

/-! ## Texts -/

/-- The tokens of a source text are those that its tree reaches over, with opening parentheses in front and
closing ones behind. What it reaches over reads as the same tree by itself if the parentheses in it are paired;
otherwise it does not read at all. -/
theorem Expr.root_reads_alone {source : String} {e : Expr} (parsed : Expr.parse source = .ok e) :
    ∃ text tokens front back, Text.slice? e.span.start e.span.stop source.toList = some text ∧
      Lexer.tokens (String.ofList text) = .ok tokens ∧
      Lexer.tokens source = .ok (front ++ tokens.map (Token.shift e.span.start) ++ back) ∧
      (∀ token ∈ front, token.kind = .openParen) ∧ (∀ token ∈ back, token.kind = .closeParen) ∧
      (Paired tokens ↔
        ∃ alone, Expr.parse (String.ofList text) = .ok alone ∧ alone.mapSpan (Span.shift e.span.start) = e) ∧
      (¬ Paired tokens → ∃ error, Expr.parse (String.ofList text) = .error error) := by
  obtain ⟨all, read, short, derived⟩ := parse_eq_ok_iff.mp parsed
  have tiles := Lexer.tiles_of_scan read
  have order : InOrder Token.span all := ⟨fun token member => (tiles.bounds token member).2, tiles.ordered⟩
  obtain ⟨front, used, back, rfl, opened, closed, ⟨first, begins, last, ends, place⟩, forms⟩ :=
    extent_of_derives derived order e List.mem_cons_self
  obtain ⟨left, text, right, tokens, whole, start, stop, cut, rfl⟩ := tiles.excerpt begins ends
  have fits : Text.bytes text ≤ Span.offsetLimit := by
    rw [whole, Text.bytes_append, Text.bytes_append] at short
    omega
  have again : Lexer.tokens (String.ofList text) = .ok tokens := by
    rw [Lexer.tokens, String.toList_ofList]
    exact Lexer.scan_of_tiles cut (by omega)
  have reads : ∀ alone, Expr.parse (String.ofList text) = .ok alone → Paired tokens := by
    intro alone parsed
    obtain ⟨tokens', read', derived'⟩ := of_parse parsed
    obtain rfl : tokens = tokens' := Except.ok.inj (again.symm.trans read')
    exact paired_of_derives derived'
  rw [place]
  refine ⟨text, tokens, front, back, Text.slice?_eq_some_iff.mpr ⟨left, right, whole, start, stop⟩, again, read,
    opened, closed, ⟨fun paired => ?_, ?_⟩, fun unpaired => ?_⟩
  · exact parse_of_shifted cut fits (forms ((paired_shift ..).mpr paired))
  · rintro ⟨alone, parsed, -⟩
    exact reads alone parsed
  · cases result : Expr.parse (String.ofList text) with
    | error error => exact ⟨error, rfl⟩
    | ok alone => exact absurd (reads alone result) unpaired

/-- A member in parentheses, `(a.b)`, at the front of a text. -/
private theorem derives_enclosed : Derives .primary
    [⟨.openParen, ⟨0, 1⟩⟩, ⟨.name "a", ⟨1, 2⟩⟩, ⟨.dot, ⟨2, 3⟩⟩, ⟨.name "b", ⟨3, 4⟩⟩, ⟨.closeParen, ⟨4, 5⟩⟩]
    [.chain (.property "a" false ⟨1, 2⟩) [.property "b" true ⟨3, 4⟩] ⟨1, 4⟩] :=
  .parens ⟨0, 1⟩ ⟨4, 5⟩ (.plain (Parser.derives_ofChain (.ofSegment (.property "a" ⟨1, 2⟩ false))
    (.dotLink ⟨2, 3⟩ (.property "b" ⟨3, 4⟩ true) .noLink)))

/-- Parentheses around all of a member are left out. -/
theorem Expr.root_reads_alone_enclosed :
    Expr.parse "(a.b)" = .ok (.chain (.property "a" false ⟨1, 2⟩) [.property "b" true ⟨3, 4⟩] ⟨1, 4⟩) ∧
    Text.slice? 1 4 "(a.b)".toList = some ['a', '.', 'b'] ∧
    ∃ alone, Expr.parse (String.ofList ['a', '.', 'b']) = .ok alone ∧ alone.mapSpan (Span.shift 1) =
      .chain (.property "a" false ⟨1, 2⟩) [.property "b" true ⟨3, 4⟩] ⟨1, 4⟩ := by
  have tokens : Lexer.scan 0 "(a.b)".toList = .ok [⟨.openParen, ⟨0, 1⟩⟩, ⟨.name "a", ⟨1, 2⟩⟩, ⟨.dot, ⟨2, 3⟩⟩,
      ⟨.name "b", ⟨3, 4⟩⟩, ⟨.closeParen, ⟨4, 5⟩⟩] := by
    simp [Lexer.scan, Lexer.isGap, Lexer.reach, Lexer.isNameStart, Lexer.isNamePart, isDigit,
      Lexer.ofLexeme?, Lexer.ofMark?, Lexer.ofName, Lexer.run, Span.ofRange, Span.offsetLimit,
      Text.bytes, Except.map, Char.utf8Size]
  have alone : Lexer.tokens (String.ofList ['a', '.', 'b']) =
      .ok [⟨.name "a", ⟨0, 1⟩⟩, ⟨.dot, ⟨1, 2⟩⟩, ⟨.name "b", ⟨2, 3⟩⟩] := by
    simp [Lexer.tokens, Lexer.scan, Lexer.isGap, Lexer.reach, Lexer.isNameStart, Lexer.isNamePart, isDigit,
      Lexer.ofLexeme?, Lexer.ofMark?, Lexer.ofName, Lexer.run, Span.ofRange, Span.offsetLimit,
      Text.bytes, Except.map, Char.utf8Size]
  have parsed := parse_of_derives tokens (by decide) (.plain (.single derives_enclosed))
  have cut : Text.slice? 1 4 "(a.b)".toList = some ['a', '.', 'b'] := by decide
  obtain ⟨text, tokens', front, back, cut', read, -, -, -, reads, -⟩ := root_reads_alone parsed
  obtain rfl : ['a', '.', 'b'] = text := Option.some.inj (cut.symm.trans cut')
  obtain rfl := Except.ok.inj (alone.symm.trans read)
  exact ⟨parsed, cut, reads.mp (by decide)⟩

/-- A chain whose head is parenthesized begins inside the parentheses and ends behind them. -/
theorem Expr.head_unpaired :
    ∃ e, Expr.parse "(a.b).c" = .ok e ∧
      ¬ ∃ text alone, Text.slice? e.span.start e.span.stop "(a.b).c".toList = some text ∧
        Expr.parse (String.ofList text) = .ok alone ∧ alone.mapSpan (Span.shift e.span.start) = e := by
  have tokens : Lexer.scan 0 "(a.b).c".toList = .ok [⟨.openParen, ⟨0, 1⟩⟩, ⟨.name "a", ⟨1, 2⟩⟩, ⟨.dot, ⟨2, 3⟩⟩,
      ⟨.name "b", ⟨3, 4⟩⟩, ⟨.closeParen, ⟨4, 5⟩⟩, ⟨.dot, ⟨5, 6⟩⟩, ⟨.name "c", ⟨6, 7⟩⟩] := by
    simp [Lexer.scan, Lexer.isGap, Lexer.reach, Lexer.isNameStart, Lexer.isNamePart, isDigit,
      Lexer.ofLexeme?, Lexer.ofMark?, Lexer.ofName, Lexer.run, Span.ofRange, Span.offsetLimit,
      Text.bytes, Except.map, Char.utf8Size]
  have alone : Lexer.scan 0 (String.ofList "a.b).c".toList).toList = .ok [⟨.name "a", ⟨0, 1⟩⟩, ⟨.dot, ⟨1, 2⟩⟩,
      ⟨.name "b", ⟨2, 3⟩⟩, ⟨.closeParen, ⟨3, 4⟩⟩, ⟨.dot, ⟨4, 5⟩⟩, ⟨.name "c", ⟨5, 6⟩⟩] := by
    simp [Lexer.scan, Lexer.isGap, Lexer.reach, Lexer.isNameStart, Lexer.isNamePart, isDigit,
      Lexer.ofLexeme?, Lexer.ofMark?, Lexer.ofName, Lexer.run, Span.ofRange, Span.offsetLimit,
      Text.bytes, Except.map, Char.utf8Size]
  have parsed := parse_of_derives tokens (by decide) (.plain (Parser.derives_ofChain derives_enclosed
    (.dotLink ⟨5, 6⟩ (.property "c" ⟨6, 7⟩ true) .noLink)))
  refine ⟨_, parsed, ?_⟩
  rintro ⟨text, e, cut, again, -⟩
  have covers : Text.slice? 1 7 "(a.b).c".toList = some "a.b).c".toList := by decide
  obtain rfl : "a.b).c".toList = text := Option.some.inj (covers.symm.trans cut)
  -- the second parenthesis is closed without the first
  obtain ⟨tokens', read, derived⟩ := of_parse again
  obtain rfl := Except.ok.inj (alone.symm.trans read)
  exact absurd (paired_of_derives derived) (by decide)

end DotChain
