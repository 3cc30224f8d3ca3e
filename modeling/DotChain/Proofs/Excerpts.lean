import DotChain.Expr.Parts
import DotChain.Proofs.Grammar
import DotChain.Proofs.Places
import DotChain.Proofs.Tiling

/-!
# Excerpts of a source text

Where the nodes of a tree stand that was read. Main statement: `Expr.parse_parts`, every node stands around
its children, which stand one after the other, and what stands at a node that is no assignment and no chain
reads as that node. By induction over the grammar, a node stands at a run of the tokens that its phrase
consists of (`Grammar.atRuns_of_derives`); a text can be cut at both ends of the run (`Lexer.Tiles.excerpt`).
-/

namespace DotChain

open Grammar

/-! ## Things that stand one after the other -/

variable {α : Type} {place : α → Span}

/-- Things that are not empty stand one after the other. -/
structure InOrder (place : α → Span) (items : List α) : Prop where
  nonempty : ∀ item ∈ items, (place item).start < (place item).stop
  apart : items.Pairwise fun left right => (place left).stop ≤ (place right).start

/-- A span reaches from the first of some things to the last one. -/
def Reaches (place : α → Span) (items : List α) (span : Span) : Prop :=
  ∃ first ∈ items.head?, ∃ last ∈ items.getLast?, span = ⟨(place first).start, (place last).stop⟩

namespace InOrder

variable {items left right : List α}

theorem nil : InOrder place [] := ⟨fun _ member => absurd member List.not_mem_nil, .nil⟩

theorem append_iff : InOrder place (left ++ right) ↔ InOrder place left ∧ InOrder place right ∧
    ∀ a ∈ left, ∀ b ∈ right, (place a).stop ≤ (place b).start := by
  constructor
  · rintro ⟨nonempty, apart⟩
    obtain ⟨ofLeft, ofRight⟩ := List.forall_mem_append.mp nonempty
    obtain ⟨ofLeft', ofRight', between⟩ := List.pairwise_append.mp apart
    exact ⟨⟨ofLeft, ofLeft'⟩, ⟨ofRight, ofRight'⟩, between⟩
  · rintro ⟨⟨ofLeft, ofLeft'⟩, ⟨ofRight, ofRight'⟩, between⟩
    exact ⟨List.forall_mem_append.mpr ⟨ofLeft, ofRight⟩,
      List.pairwise_append.mpr ⟨ofLeft', ofRight', between⟩⟩

theorem within {used : List α} (order : InOrder place items) (inside : used <:+: items) :
    InOrder place used :=
  ⟨fun item member => order.nonempty item (inside.subset member), order.apart.sublist inside.sublist⟩

/-- What reaches from the first thing to the last one stands around all of them. -/
theorem around {span : Span} (order : InOrder place items) (reaches : Reaches place items span) :
    ∀ item ∈ items, span.start ≤ (place item).start ∧ (place item).stop ≤ span.stop := by
  obtain ⟨first, begins, last, ends, rfl⟩ := reaches
  obtain ⟨more, rfl⟩ := List.head?_eq_some_iff.mp begins
  obtain ⟨init, same⟩ := List.getLast?_eq_some_iff.mp ends
  intro item member
  constructor
  · rcases List.mem_cons.mp member with rfl | later
    · exact Nat.le_refl _
    · have before := (List.pairwise_cons.mp order.apart).1 item later
      have some := order.nonempty first List.mem_cons_self
      dsimp only
      omega
  · rw [same] at member order
    rcases List.mem_append.mp member with earlier | here
    · have before := (List.pairwise_append.mp order.apart).2.2 item earlier last List.mem_cons_self
      have some := order.nonempty last (List.mem_append_right _ List.mem_cons_self)
      dsimp only
      omega
    · obtain rfl := List.mem_singleton.mp here
      exact Nat.le_refl _

theorem nonempty_of_reaches {span : Span} (order : InOrder place items) (reaches : Reaches place items span) :
    span.start < span.stop := by
  obtain ⟨first, begins, -⟩ := id reaches
  have inside := List.mem_of_mem_head? begins
  have around := order.around reaches first inside
  have some := order.nonempty first inside
  omega

/-- The places of the first thing and the last one are merged to what lies between their outer ends. -/
theorem merge_eq {first last : α} (order : InOrder place items) (begins : first ∈ items.head?)
    (ends : last ∈ items.getLast?) :
    (place first).merge (place last) = ⟨(place first).start, (place last).stop⟩ := by
  have around := order.around ⟨first, begins, last, ends, rfl⟩
  have left := around last (List.mem_of_mem_getLast? ends)
  have right := around first (List.mem_of_mem_head? begins)
  dsimp only at left right
  simp only [Span.merge, Span.mk.injEq]
  omega

/-- That is what reaches over all. -/
theorem reaches_merge {first last : α} (order : InOrder place items) (begins : first ∈ items.head?)
    (ends : last ∈ items.getLast?) : Reaches place items ((place first).merge (place last)) :=
  ⟨first, begins, last, ends, order.merge_eq begins ends⟩

end InOrder

theorem reaches_single (item : α) : Reaches place [item] (place item) := ⟨item, rfl, item, rfl, rfl⟩

/-- A run from the front of one list to the end of another one. -/
theorem Reaches.join {left middle right : List α} {a b : Span} (begins : Reaches place left a)
    (ends : Reaches place right b) : Reaches place (left ++ (middle ++ right)) ⟨a.start, b.stop⟩ := by
  obtain ⟨first, begins, -, -, rfl⟩ := begins
  obtain ⟨-, -, last, ends, rfl⟩ := ends
  refine ⟨first, ?_, last, ?_, rfl⟩
  · rw [List.head?_append, Option.mem_def.mp begins]
    rfl
  · rw [← List.append_assoc, List.getLast?_append, Option.mem_def.mp ends]
    rfl

/-! ## Nodes -/

/-- A node stands at a run of tokens, around its children, which stand one after the other. If it is no
assignment and no chain, the run forms it. -/
structure AtRun (tokens : List Token) (node : Expr) : Prop where
  run : ∃ used, used <:+: tokens ∧ Reaches Token.span used node.span ∧
    (node.IsPrimary → Derives .primary used [node.undotted])
  around : ∀ child ∈ node.children, node.span.start ≤ child.span.start ∧ child.span.stop ≤ node.span.stop
  children : InOrder Expr.span node.children

/-- All nodes of some trees stand at runs of tokens, and the trees stand one after the other. -/
structure AtRuns (tokens : List Token) (es : List Expr) : Prop where
  parts : ∀ e ∈ es, ∀ node, e.HasPart node → AtRun tokens node
  order : InOrder Expr.span es

theorem AtRun.mono {used tokens : List Token} {node : Expr} (stands : AtRun used node)
    (inside : used <:+: tokens) : AtRun tokens node := by
  obtain ⟨run, within, reaches, forms⟩ := stands.run
  exact ⟨⟨run, within.trans inside, reaches, forms⟩, stands.around, stands.children⟩

/-- A node at a run of tokens begins with a token and ends with one. -/
theorem AtRun.ends {tokens : List Token} {node : Expr} (stands : AtRun tokens node) :
    (∃ token ∈ tokens, node.span.start = token.span.start) ∧
      ∃ token ∈ tokens, node.span.stop = token.span.stop := by
  obtain ⟨used, inside, ⟨first, begins, last, ends, same⟩, _⟩ := stands.run
  rw [same]
  exact ⟨⟨first, inside.subset (List.mem_of_mem_head? begins), rfl⟩,
    last, inside.subset (List.mem_of_mem_getLast? ends), rfl⟩

namespace AtRuns

variable {tokens left right : List Token} {e first last : Expr} {es others middle : List Expr}

theorem nil : AtRuns tokens [] := ⟨fun _ member => absurd member List.not_mem_nil, .nil⟩

theorem mono {used : List Token} (stand : AtRuns used es) (inside : used <:+: tokens) :
    AtRuns tokens es :=
  ⟨fun e member node part => (stand.parts e member node part).mono inside, stand.order⟩

theorem root (stand : AtRuns tokens es) (member : e ∈ es) : AtRun tokens e :=
  stand.parts e member e (.self e)

theorem append (stand : AtRuns left es) (stand' : AtRuns right others)
    (order : InOrder Token.span (left ++ right)) : AtRuns (left ++ right) (es ++ others) := by
  have apart := (InOrder.append_iff.mp order).2.2
  constructor
  · refine List.forall_mem_append.mpr ⟨(stand.mono ?_).parts, (stand'.mono ?_).parts⟩
    · exact (List.prefix_append left right).isInfix
    · exact (List.suffix_append left right).isInfix
  · refine InOrder.append_iff.mpr ⟨stand.order, stand'.order, fun a member b member' => ?_⟩
    obtain ⟨_, token, among, stop⟩ := (stand.root member).ends
    obtain ⟨⟨token', among', start⟩, _⟩ := (stand'.root member').ends
    rw [stop, start]
    exact apart token among token' among'

/-- A tree stands if its topmost node and its children do. -/
theorem node (here : AtRun tokens e) (order : InOrder Token.span tokens)
    (below : AtRuns tokens e.children) : AtRuns tokens [e] := by
  constructor
  · refine List.forall_mem_singleton.mpr fun node part => ?_
    cases part with
    | self => exact here
    | inside member within => exact below.parts _ member node within
  · obtain ⟨used, inside, reaches, _⟩ := here.run
    have some := (order.within inside).nonempty_of_reaches reaches
    exact ⟨List.forall_mem_singleton.mpr some, List.pairwise_singleton _ _⟩

/-- A node that its phrase forms by itself stands at all of the phrase. -/
theorem whole (order : InOrder Token.span tokens) (reaches : Reaches Token.span tokens e.span)
    (forms : Derives .primary tokens [e.undotted]) (below : AtRuns tokens e.children) :
    AtRuns tokens [e] := by
  refine node ⟨⟨tokens, List.infix_refl _, reaches, fun _ => forms⟩, fun child member => ?_, below.order⟩
    order below
  obtain ⟨⟨token, among, start⟩, token', among', stop⟩ := (below.root member).ends
  rw [start, stop]
  exact ⟨(order.around reaches token among).1, (order.around reaches token' among').2⟩

/-- A node that is merged from its first child and its last one stands at the runs of both and all tokens
between. -/
theorem merged (children : e.children = first :: (middle ++ [last]))
    (span : e.span = first.span.merge last.span) (joins : ¬ e.IsPrimary) (ofFirst : AtRuns left [first])
    (ofOthers : AtRuns right (middle ++ [last])) (order : InOrder Token.span (left ++ right)) :
    AtRuns (left ++ right) [e] := by
  have below : AtRuns (left ++ right) e.children := by
    rw [children]
    exact ofFirst.append ofOthers order
  have begins : first ∈ e.children.head? := by rw [children]; rfl
  have ends : last ∈ e.children.getLast? := by
    rw [children, ← List.cons_append, List.getLast?_concat]
    rfl
  have reaches : Reaches Expr.span e.children e.span := span ▸ below.order.reaches_merge begins ends
  refine node ⟨?_, below.order.around reaches, below.order⟩ order below
  obtain ⟨used, ⟨front, between, rfl⟩, fromFirst, _⟩ := (ofFirst.root List.mem_cons_self).run
  have atLast := ofOthers.root (List.mem_append_right middle List.mem_cons_self)
  obtain ⟨used', ⟨between', back, rfl⟩, toLast, _⟩ := atLast.run
  refine ⟨used ++ ((between ++ between') ++ used'), ⟨front, back, by simp⟩, ?_,
    fun primary => absurd primary joins⟩
  obtain ⟨_, begins', _, ends', same⟩ := reaches
  obtain rfl := Option.mem_unique begins begins'
  obtain rfl := Option.mem_unique ends ends'
  rw [same]
  exact fromFirst.join toLast

end AtRuns

/-- Every node of a phrase stands at a run of its tokens. -/
theorem Grammar.atRuns_of_derives {phrase : Nonterminal} {tokens : List Token} {es : List Expr}
    (derived : Derives phrase tokens es) (order : InOrder Token.span tokens) : AtRuns tokens es := by
  have between {front back inner : List Token} : inner <:+: front ++ (inner ++ back) :=
    ⟨front, back, List.append_assoc ..⟩
  have behind {token : Token} {rest : List Token} : rest <:+: token :: rest := (List.suffix_cons ..).isInfix
  have last (front : List Token) (token : Token) : token ∈ (front ++ [token]).getLast? := by
    rw [List.getLast?_concat]
    rfl
  induction derived with
  | plain _ ih | single _ ih | ofReference _ ih | ofSegment _ ih | ofIndexer _ ih | oneArgument _ ih =>
    exact ih order
  | noLink => exact .nil
  | literal value span => exact .whole order (reaches_single _) (.literal value span) .nil
  | property name span dotted =>
    exact .whole order (reaches_single _) (.ofSegment (.property name span false)) .nil
  | emptyCall name span opening closing dotted =>
    exact .whole order (order.reaches_merge rfl rfl)
      (.ofSegment (.emptyCall name span opening closing false)) .nil
  | @call inner args name span opening closing dotted ofArgs ih =>
    have inside : inner <:+:
        [⟨.name name, span⟩, ⟨.openParen, opening⟩] ++ (inner ++ [⟨.closeParen, closing⟩]) := between
    exact .whole order (order.reaches_merge rfl (last (_ :: _ :: inner) _))
      (.ofSegment (.call name span opening closing false ofArgs)) ((ih (order.within inside)).mono inside)
  | hash name mark span =>
    exact .whole order (order.reaches_merge rfl rfl) (.ofReference (.hash name mark span)) .nil
  | @brackets inner index opening closing derived ih =>
    have inside : inner <:+: [⟨.openBracket, opening⟩] ++ (inner ++ [⟨.closeBracket, closing⟩]) := between
    exact .whole order (order.reaches_merge rfl (last (_ :: inner) _))
      (.ofIndexer (.brackets opening closing derived)) ((ih (order.within inside)).mono inside)
  | @parens inner e opening closing _ ih =>
    have inside : inner <:+: [⟨.openParen, opening⟩] ++ (inner ++ [⟨.closeParen, closing⟩]) := between
    exact (ih (order.within inside)).mono inside
  | @assignment left right target value sign _ _ ihTarget ihValue =>
    obtain ⟨ofTarget, ofValue, _⟩ := InOrder.append_iff.mp order
    have stand : AtRuns (⟨.equals, sign⟩ :: right) ([] ++ [value]) :=
      (ihValue (ofValue.within behind)).mono behind
    exact .merged rfl rfl id (ihTarget ofTarget) stand order
  | compound _ _ ihHead ihTail =>
    obtain ⟨ofHead, ofTail, _⟩ := InOrder.append_iff.mp order
    exact .merged rfl rfl id (ihHead ofHead) (ihTail ofTail) order
  | dotLink point _ _ ihFirst ihOthers =>
    have order := order.within behind
    obtain ⟨ofFirst, ofOthers, _⟩ := InOrder.append_iff.mp order
    exact ((ihFirst ofFirst).append (ihOthers ofOthers) order).mono behind
  | indexLink _ _ ihFirst ihOthers =>
    obtain ⟨ofFirst, ofOthers, _⟩ := InOrder.append_iff.mp order
    exact (ihFirst ofFirst).append (ihOthers ofOthers) order
  | moreArguments comma _ _ ihFirst ihOthers =>
    obtain ⟨ofFirst, ofOthers, _⟩ := InOrder.append_iff.mp order
    exact (ihFirst ofFirst).append ((ihOthers (ofOthers.within behind)).mono behind) order

/-! ## Excerpts -/

/-- Tokens that stand further back form the same trees further back. -/
theorem Grammar.derives_shift (offset : Nat) {phrase : Nonterminal} {tokens : List Token} {es : List Expr}
    (derived : Derives phrase tokens es) :
    Derives phrase (tokens.map (Token.shift offset)) (es.map (Expr.mapSpan (Span.shift offset))) := by
  induction derived with
  | plain _ ih => exact .plain ih
  | single _ ih => exact .single ih
  | ofReference _ ih => exact .ofReference ih
  | ofSegment _ ih => exact .ofSegment ih
  | ofIndexer _ ih => exact .ofIndexer ih
  | oneArgument _ ih => exact .oneArgument ih
  | noLink => exact .noLink
  | literal value span => exact .literal value _
  | property name span dotted => exact .property name _ dotted
  | emptyCall name span opening closing dotted =>
    have read := Derives.emptyCall name (span.shift offset) (opening.shift offset)
      (closing.shift offset) dotted
    rwa [← Span.shift_merge] at read
  | call name span opening closing dotted _ ih =>
    have read := Derives.call name (span.shift offset) (opening.shift offset) (closing.shift offset) dotted ih
    rw [← Span.shift_merge] at read
    simpa [Expr.mapSpan, Token.shift] using read
  | hash name mark span =>
    have read := Derives.hash name (mark.shift offset) (span.shift offset)
    rwa [← Span.shift_merge] at read
  | brackets opening closing _ ih =>
    have read := Derives.brackets (opening.shift offset) (closing.shift offset) ih
    rw [← Span.shift_merge] at read
    simpa [Expr.mapSpan, Token.shift] using read
  | parens opening closing _ ih =>
    simpa [Token.shift] using Derives.parens (opening.shift offset) (closing.shift offset) ih
  | assignment sign _ _ ihTarget ihValue =>
    have read := Derives.assignment (sign.shift offset) ihTarget ihValue
    rw [Expr.span_mapSpan, Expr.span_mapSpan, ← Span.shift_merge] at read
    simpa [Expr.mapSpan, Token.shift] using read
  | compound _ _ ihHead ihTail =>
    rw [List.map_append, List.map_singleton] at ihTail
    have read := Derives.compound ihHead ihTail
    rw [Expr.span_mapSpan, Expr.span_mapSpan, ← Span.shift_merge] at read
    simpa [Expr.mapSpan] using read
  | dotLink point _ _ ihFirst ihOthers =>
    simpa [Token.shift] using Derives.dotLink (point.shift offset) ihFirst ihOthers
  | indexLink _ _ ihFirst ihOthers =>
    simpa using Derives.indexLink ihFirst ihOthers
  | moreArguments comma _ _ ihFirst ihOthers =>
    simpa [Token.shift] using Derives.moreArguments (comma.shift offset) ihFirst ihOthers

/-- A node of a tree that was read from a text that is cut into some tokens stands at a part of the text that
begins and ends with a token, around its children, which stand one after the other. If it is no assignment
and no chain, this part of the text reads as the node, where no point stands before it. -/
structure Expr.StandsIn (source : List Char) (tokens : List Token) (node : Expr) : Prop where
  nonempty : node.span.start < node.span.stop
  marks : node.span.Marks source
  start : ∃ token ∈ tokens, node.span.start = token.span.start
  stop : ∃ token ∈ tokens, node.span.stop = token.span.stop
  around : ∀ child ∈ node.children, node.span.start ≤ child.span.start ∧ child.span.stop ≤ node.span.stop
  children : InOrder Expr.span node.children
  alone : node.IsPrimary → ∃ left text right e, source = left ++ text ++ right ∧
    Text.bytes left = node.span.start ∧ Text.bytes (left ++ text) = node.span.stop ∧
    Expr.parse (String.ofList text) = .ok e ∧ e.mapSpan (Span.shift node.span.start) = node.undotted

/-- Tokens that form a tree by themselves are cut from a text that reads as the tree, further in front. -/
theorem Expr.parse_of_shifted {word : List Char} {tokens : List Token} {e : Expr} {offset : Nat}
    (tiles : Lexer.Tiles 0 word tokens) (short : Text.bytes word ≤ Span.offsetLimit)
    (forms : Derives .expression (tokens.map (Token.shift offset)) [e]) :
    ∃ alone, Expr.parse (String.ofList word) = .ok alone ∧ alone.mapSpan (Span.shift offset) = e := by
  have kinds : tokens.map Token.kind = (tokens.map (Token.shift offset)).map Token.kind := by
    rw [List.map_map]
    rfl
  obtain ⟨es, derived, shapes⟩ := derives_carries forms tokens kinds
  obtain ⟨alone, rfl, _⟩ := List.map_eq_singleton_iff.mp shapes
  refine ⟨alone, ?_, ?_⟩
  · apply Expr.parse_of_derives _ _ derived
    · rw [String.toList_ofList]
      exact Lexer.scan_of_tiles tiles (by omega)
    · rwa [String.toList_ofList]
  · -- the tokens have one tree only
    have shifted := Parser.complete_of_derives 0 (derives_shift offset derived)
    exact Except.ok.inj (shifted.symm.trans (Parser.complete_of_derives 0 forms))

/-- Every node of a tree that was read stands in the source text. -/
theorem Expr.parse_parts {source : String} {e : Expr} (parsed : Expr.parse source = .ok e) :
    ∃ tokens, Lexer.tokens source = .ok tokens ∧
      ∀ node, e.HasPart node → node.StandsIn source.toList tokens := by
  obtain ⟨tokens, read, short, derived⟩ := parse_eq_ok_iff.mp parsed
  have tiles := Lexer.tiles_of_scan read
  have order : InOrder Token.span tokens := ⟨fun token member => (tiles.bounds token member).2, tiles.ordered⟩
  have stand := atRuns_of_derives derived order
  have placed := Lexer.placed_scan [] source.toList
  rw [Text.bytes_nil, read] at placed
  refine ⟨tokens, read, fun node part => ?_⟩
  have stands := stand.parts e List.mem_cons_self node part
  obtain ⟨⟨token, among, start⟩, token', among', stop⟩ := stands.ends
  obtain ⟨used, inside, reaches, forms⟩ := stands.run
  have nonempty := (order.within inside).nonempty_of_reaches reaches
  refine ⟨nonempty, ?_, ⟨token, among, start⟩, ⟨token', among', stop⟩, stands.around, stands.children,
    fun primary => ?_⟩
  · exact ⟨Nat.le_of_lt nonempty, start ▸ (placed token among).start, stop ▸ (placed token' among').stop⟩
  · obtain ⟨front, back, rfl⟩ := inside
    obtain ⟨first, begins, last, ends, same⟩ := reaches
    obtain ⟨left, word, right, others, whole, starts, stops, cut, rfl⟩ := tiles.excerpt begins ends
    rw [whole, Text.bytes_append, Text.bytes_append] at short
    obtain ⟨alone, read, shifted⟩ := parse_of_shifted cut (by omega) (.plain (.single (forms primary)))
    rw [same]
    exact ⟨left, word, right, alone, whole, starts, stops, read, shifted⟩

/-- A member behind a point. -/
theorem Expr.parse_parts_member :
    Expr.parse "a . b" =
      .ok (.chain (.property "a" false ⟨0, 1⟩) [.property "b" true ⟨4, 5⟩] ⟨0, 5⟩) ∧
    ∃ tokens, Lexer.tokens "a . b" = .ok tokens ∧
      (Expr.property "b" true ⟨4, 5⟩).StandsIn "a . b".toList tokens := by
  have tokens : Lexer.scan 0 "a . b".toList =
      .ok [⟨.name "a", ⟨0, 1⟩⟩, ⟨.dot, ⟨2, 3⟩⟩, ⟨.name "b", ⟨4, 5⟩⟩] := by
    simp [Lexer.scan, Lexer.isGap, Lexer.reach, Lexer.isNameStart, Lexer.isNamePart, isDigit,
      Lexer.ofLexeme?, Lexer.ofMark?, Lexer.ofName, Lexer.run, Span.ofRange, Span.offsetLimit,
      Text.bytes, Except.map, Char.utf8Size]
  have tail : Derives .links [⟨.dot, ⟨2, 3⟩⟩, ⟨.name "b", ⟨4, 5⟩⟩] ([] ++ [.property "b" true ⟨4, 5⟩]) :=
    .dotLink ⟨2, 3⟩ (.property "b" ⟨4, 5⟩ true) .noLink
  have parsed := Expr.parse_of_derives tokens (by decide)
    (.plain (.compound (.ofSegment (.property "a" ⟨0, 1⟩ false)) tail))
  obtain ⟨all, read, stand⟩ := Expr.parse_parts parsed
  exact ⟨parsed, all, read, stand _ (.inside (List.mem_cons_of_mem _ List.mem_cons_self) (.self _))⟩

end DotChain
