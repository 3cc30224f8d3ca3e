import DotChain.Proofs.Endings
import DotChain.Proofs.Lexemes

/-!
# Gaps between tokens

Gaps separate tokens and mean nothing else. Main statement: `parse_respaced`, a text that is put together
from the words of a source, with other gaps, is cut into the same tokens and read in the same way. A word
that is cut from a source is cut in the same way when it stands alone (`lexes_cut`), a gap ends every word
(`Spaced.lexes`), and tokens that stand elsewhere are read alike (`Parser.complete_respaced`). The one
exception is a source whose end is past the greatest offset (`parse_overlong`).
-/

namespace DotChain

/-! ## Words -/

/-- The part of a text that a span covers, where its ends fall on boundaries. -/
def Text.cut (text : List Char) (span : Span) : List Char :=
  match splitAt? span.stop text with
  | none => []
  | some (front, _) =>
    match splitAt? span.start front with
    | none => []
    | some (_, part) => part

theorem Text.cut_between (left word right : List Char) :
    cut (left ++ word ++ right) ⟨bytes left, bytes (left ++ word)⟩ = word := by
  have stop : splitAt? (bytes (left ++ word)) (left ++ word ++ right) = some (left ++ word, right) :=
    splitAt?_eq_some_iff.mpr ⟨rfl, rfl⟩
  have start : splitAt? (bytes left) (left ++ word) = some (left, word) :=
    splitAt?_eq_some_iff.mpr ⟨rfl, rfl⟩
  simp only [cut, stop, start]

namespace Lexer

/-- The words of a source, that is the texts of its tokens. -/
def words (source : List Char) (tokens : List Token) : List (List Char) :=
  tokens.map fun token => Text.cut source token.span

/-- A text consists of words, with a gap in front of each of them and one behind the last. Gaps between two
words are not empty. -/
inductive Spaced : List (List Char) → List Char → Prop where
  | last {gap : List Char} (blank : ∀ c ∈ gap, isGap c = true) : Spaced [] gap
  | word {gap word text : List Char} {words : List (List Char)} (blank : ∀ c ∈ gap, isGap c = true)
    (others : Spaced words text) (apart : words ≠ [] → ∃ c ∈ text.head?, isGap c = true) :
    Spaced (word :: words) (gap ++ (word ++ text))

theorem lexes_gap {gap text : List Char} {kinds : List TokenKind} (blank : ∀ c ∈ gap, isGap c = true)
    (others : Lexes text kinds) : Lexes (gap ++ text) kinds := by
  induction gap with
  | nil => exact others
  | cons c gap ih =>
    obtain ⟨first, blank⟩ := List.forall_mem_cons.mp blank
    exact .gap first (ih blank)

/-- A word stands for its token when it stands alone. -/
theorem lexes_cut {source : List Char} {tokens : List Token} {token : Token} (tiles : Tiles 0 source tokens)
    (member : token ∈ tokens) : Lexes (Text.cut source token.span) [token.kind] := by
  obtain ⟨front, back, rfl⟩ := List.append_of_mem member
  rw [← List.singleton_append, ← List.append_assoc] at tiles
  have one : token ∈ [token].head? ∧ token ∈ [token].getLast? := ⟨rfl, rfl⟩
  obtain ⟨left, word, right, others, rfl, start, stop, tiles, same⟩ := tiles.excerpt one.1 one.2
  have place : token.span = ⟨Text.bytes left, Text.bytes (left ++ word)⟩ := by rw [start, stop]
  have kinds : others.map Token.kind = [token.kind] := by
    have shifted := congrArg (List.map Token.kind) same
    rw [List.map_map] at shifted
    exact shifted.symm
  rw [place, Text.cut_between, ← kinds]
  exact lexes_of_tiles tiles

theorem breaks_gap {c : Char} {text : List Char} (first : c ∈ text.head?) (blank : isGap c = true) :
    Breaks text := by
  intro d member
  obtain rfl := Option.mem_unique first member
  simp only [isGap, Bool.or_eq_true, beq_iff_eq] at blank
  rcases blank with ((rfl | rfl) | rfl) | rfl <;> decide

/-- Words with gaps between them are cut as each of them is alone. -/
theorem Spaced.lexes {word : Token → List Char} {words : List (List Char)} {text : List Char}
    (spaced : Spaced words text) : ∀ {tokens : List Token}, words = tokens.map word →
      (∀ token ∈ tokens, Lexes (word token) [token.kind]) → Lexes text (tokens.map Token.kind) := by
  induction spaced with
  | @last gap blank =>
    intro tokens same alone
    obtain rfl := List.map_eq_nil_iff.mp same.symm
    rw [← List.append_nil gap]
    exact lexes_gap blank .nothing
  | @word gap first text words blank others apart ih =>
    intro tokens same alone
    obtain ⟨token, tokens, rfl, rfl, rfl⟩ := List.map_eq_cons_iff.mp same.symm
    obtain ⟨one, alone⟩ := List.forall_mem_cons.mp alone
    refine lexes_gap blank (one.append ?_ (ih rfl alone))
    -- the next word stands behind a gap, and behind the last word there is nothing else
    rcases tokens with _ | ⟨next, tokens⟩
    · cases others with
      | last blank => exact fun c member => breaks_gap member (blank c (List.mem_of_mem_head? member)) c member
    · obtain ⟨c, first, blank⟩ := apart (by simp)
      exact breaks_gap first blank

end Lexer

/-! ## Readings without places -/

/-- An error wherever it stands. -/
def SyntaxError.unplaced : SyntaxError → SyntaxError
  | .invalidToken text _ => .invalidToken text .unplaced
  | .unexpectedToken expected found => .unexpectedToken expected ⟨found.kind, .unplaced⟩
  | .unexpectedEnd expected _ => .unexpectedEnd expected .unplaced
  | .sourceTooLarge cause => .sourceTooLarge cause

/-- What is read, or why nothing is, wherever it stands. -/
def Expr.reading (result : Except SyntaxError Expr) : Except SyntaxError Expr :=
  (result.map Expr.shape).mapError SyntaxError.unplaced

open Grammar

namespace Parser

/-- Two errors at the first of the tokens that are left differ in nothing but their places. -/
theorem unexpected_respaced (eof eof' : Nat) (expected : Expectation) {rest rest' : List Token}
    (same : SameFirst rest rest') :
    (unexpected eof' expected rest').unplaced = (unexpected eof expected rest).unplaced := by
  cases rest with
  | nil =>
    rw [sameFirst_nil.mp same]
    rfl
  | cons found back =>
    obtain ⟨span, back', rfl⟩ := sameFirst_cons.mp same
    rfl

theorem sameFirst_of_kinds {rest rest' : List Token} (kinds : rest'.map Token.kind = rest.map Token.kind) :
    SameFirst rest rest' := by
  have first := congrArg List.head? kinds
  rwa [List.head?_map, List.head?_map] at first

/-- Tokens are read in the same way wherever they stand. -/
theorem complete_respaced (eof eof' : Nat) {tokens others : List Token}
    (kinds : others.map Token.kind = tokens.map Token.kind) :
    Expr.reading (complete eof' others) = Expr.reading (complete eof tokens) := by
  cases expression_ends tokens with
  | done front rest whole again =>
    rw [List.map_append] at kinds
    obtain ⟨front', rest', rfl, ofFront, ofRest⟩ := List.map_eq_append_iff.mp kinds
    have left := again eof front rest rfl rfl
    have left' := again eof' front' rest' ofFront (sameFirst_of_kinds ofRest)
    cases rest with
    | nil =>
      obtain rfl := List.map_eq_nil_iff.mp ofRest
      obtain ⟨e, derived⟩ := whole.tree rfl
      obtain ⟨es, derived', shapes⟩ := derives_carries derived front' ofFront
      obtain ⟨e', rfl, shape⟩ := List.map_eq_singleton_iff.mp shapes
      rw [List.append_nil, List.append_nil, complete_of_derives eof derived,
        complete_of_derives eof' derived']
      exact congrArg Except.ok shape
    | cons found back =>
      obtain ⟨span, back', rfl, _⟩ := kinds_cons.mp ofRest
      rw [complete_of_left left, complete_of_left left']
      rfl
  | stuck front rest expected begun again =>
    rw [List.map_append] at kinds
    obtain ⟨front', rest', rfl, ofFront, ofRest⟩ := List.map_eq_append_iff.mp kinds
    have same := sameFirst_of_kinds ofRest
    rw [complete_of_stopped (again eof front rest rfl rfl),
      complete_of_stopped (again eof' front' rest' ofFront same)]
    exact congrArg Except.error (unexpected_respaced eof eof' expected same)

end Parser

/-- A text that consists of the words of a source, with other gaps, has the tokens of the source, and the
same tree or the same error, up to places, if the source is not too long to be parsed. -/
theorem Expr.parse_respaced {source text : String} {tokens : List Token}
    (read : Lexer.tokens source = .ok tokens)
    (spaced : Lexer.Spaced (Lexer.words source.toList tokens) text.toList)
    (short : Text.bytes text.toList ≤ Span.offsetLimit) :
    (∃ others, Lexer.tokens text = .ok others ∧ others.map Token.kind = tokens.map Token.kind) ∧
    (Text.bytes source.toList ≤ Span.offsetLimit → reading (parse text) = reading (parse source)) := by
  have lexes := spaced.lexes rfl fun token => Lexer.lexes_cut (Lexer.tiles_of_scan read)
  obtain ⟨others, read', kinds⟩ := Lexer.scan_of_lexes lexes 0 (by omega)
  refine ⟨⟨others, read', kinds⟩, fun sourceShort => ?_⟩
  rw [parse_eq_complete read sourceShort, parse_eq_complete read' short]
  exact Parser.complete_respaced _ _ kinds

/-- Names and points may be set apart. -/
theorem Expr.parse_respaced_member :
    Lexer.tokens "a.b" = .ok [⟨.name "a", ⟨0, 1⟩⟩, ⟨.dot, ⟨1, 2⟩⟩, ⟨.name "b", ⟨2, 3⟩⟩] ∧
    Lexer.Spaced [['a'], ['.'], ['b']] "a .\n b".toList ∧
    (∃ others, Lexer.tokens "a .\n b" = .ok others ∧
      others.map Token.kind = [.name "a", .dot, .name "b"]) ∧
    reading (parse "a .\n b") =
      .ok (.chain (.property "a" false .unplaced) [.property "b" true .unplaced] .unplaced) := by
  have read : Lexer.tokens "a.b" =
      .ok [⟨.name "a", ⟨0, 1⟩⟩, ⟨.dot, ⟨1, 2⟩⟩, ⟨.name "b", ⟨2, 3⟩⟩] := by
    simp [Lexer.tokens, Lexer.scan, Lexer.isGap, Lexer.reach, Lexer.isNameStart, Lexer.isNamePart,
      isDigit, Lexer.ofLexeme?, Lexer.ofMark?, Lexer.ofName, Lexer.run, Span.ofRange, Span.offsetLimit,
      Text.bytes, Except.map, Char.utf8Size]
  have last : Lexer.Spaced [['b']] ['\n', ' ', 'b'] :=
    @Lexer.Spaced.word ['\n', ' '] ['b'] [] [] (by simp [Lexer.isGap]) (.last (by simp)) (by simp)
  have middle : Lexer.Spaced [['.'], ['b']] [' ', '.', '\n', ' ', 'b'] :=
    @Lexer.Spaced.word [' '] ['.'] _ _ (by simp [Lexer.isGap]) last fun _ => ⟨'\n', rfl, rfl⟩
  have spaced : Lexer.Spaced [['a'], ['.'], ['b']] "a .\n b".toList :=
    @Lexer.Spaced.word [] ['a'] _ _ (by simp) middle fun _ => ⟨' ', rfl, rfl⟩
  have parsed : parse "a.b" =
      .ok (.chain (.property "a" false ⟨0, 1⟩) [.property "b" true ⟨2, 3⟩] ⟨0, 3⟩) :=
    parse_of_derives read (by decide) (.plain (Parser.derives_ofChain
      (.ofSegment (.property "a" ⟨0, 1⟩ false)) (.dotLink ⟨1, 2⟩ (.property "b" ⟨2, 3⟩ true) .noLink)))
  obtain ⟨same, alike⟩ := parse_respaced read spaced (by decide)
  refine ⟨read, spaced, same, (alike (by decide)).trans ?_⟩
  rw [parsed]
  rfl

/-! ## Sources that are too long -/

private theorem bytes_spaces (count : Nat) : Text.bytes (List.replicate count ' ') = count := by
  induction count with
  | zero => rfl
  | succ count ih =>
    rw [List.replicate_succ, Text.bytes_cons, ih]
    exact Nat.add_comm 1 count

private theorem scan_spaces (offset count : Nat) : Lexer.scan offset (List.replicate count ' ') = .ok [] := by
  have blank : Lexer.isGap ' ' = true := rfl
  induction count generalizing offset with
  | zero => rw [List.replicate_zero, Lexer.scan]
  | succ count ih =>
    rw [List.replicate_succ, Lexer.scan, if_pos blank]
    exact ih (offset + 1)

/-- However many spaces stand behind a name, it is the only token. -/
private theorem scan_name_spaces (count : Nat) :
    Lexer.scan 0 ('a' :: List.replicate count ' ') = .ok [⟨.name "a", ⟨0, 1⟩⟩] := by
  have reach : Lexer.reach 'a' (List.replicate count ' ') = 0 := by
    cases count <;> rfl
  have visible : ¬ Lexer.isGap 'a' = true := by decide
  rw [Lexer.scan, if_neg visible, reach, List.take_zero, List.drop_zero]
  exact congrArg (Except.map (⟨.name "a", ⟨0, 1⟩⟩ :: ·)) (scan_spaces 1 count)

/-- Only a source that is not too long to be parsed is read as its words are with other gaps: a name is read
alone, but with too many spaces behind it it is refused, though it has the same token. -/
theorem Expr.parse_overlong :
    let source := String.ofList ('a' :: List.replicate Span.offsetLimit ' ')
    ∃ tokens, Lexer.tokens source = .ok tokens ∧
      Lexer.Spaced (Lexer.words source.toList tokens) "a".toList ∧
      Text.bytes "a".toList ≤ Span.offsetLimit ∧
      parse source = .error (.sourceTooLarge (.startTooLarge 4294967296)) ∧
      reading (parse "a") = .ok (.property "a" false .unplaced) ∧
      reading (parse "a") ≠ reading (parse source) := by
  intro source
  have text : source.toList = 'a' :: List.replicate Span.offsetLimit ' ' := String.toList_ofList
  have read : Lexer.tokens source = .ok [⟨.name "a", ⟨0, 1⟩⟩] := by
    rw [Lexer.tokens, text]
    exact scan_name_spaces Span.offsetLimit
  have size : Text.bytes source.toList = 4294967296 := by
    rw [text, Text.bytes_cons, bytes_spaces]
    rfl
  have words : Lexer.words source.toList [⟨.name "a", ⟨0, 1⟩⟩] = [['a']] := by
    rw [text]
    exact congrArg (fun word => [word]) (Text.cut_between [] ['a'] (List.replicate Span.offsetLimit ' '))
  have refused : parse source = .error (.sourceTooLarge (.startTooLarge 4294967296)) := by
    rw [parse_of_long read (by rw [size]; decide), size]
  have alone : parse "a" = .ok (.property "a" false ⟨0, 1⟩) :=
    parse_of_derives (scan_name_spaces 0) (by decide) (.plain (.single (.ofSegment (.property "a" ⟨0, 1⟩ false))))
  refine ⟨_, read, ?_, by decide, refused, ?_, ?_⟩
  · rw [words]
    exact @Lexer.Spaced.word [] ['a'] [] [] (by simp) (.last (by simp)) (by simp)
  · rw [alone]
    rfl
  · rw [alone, refused]
    intro same
    cases same

end DotChain
