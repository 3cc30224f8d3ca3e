import DotChain.Proofs.Extents

/-!
# Texts cut at tokens

How a text is cut into tokens, with the places of the tokens. Main statements: `tiles_of_scan` and
`scan_of_tiles`, that is what reading tokens does; `Tiles.excerpt`, the part of a text from one token up to
another one is cut into the same tokens, and `Tiles.shifted`, where a text stands decides nothing but where
its tokens stand.
-/

namespace DotChain

/-- The same token further back in a text. -/
def Token.shift (offset : Nat) (token : Token) : Token := { token with span := token.span.shift offset }

namespace Lexer

/-- A text that stands at an offset is cut into tokens. -/
inductive Tiles : Nat → List Char → List Token → Prop where
  | nothing (offset : Nat) : Tiles offset [] []
  | gap {offset : Nat} {c : Char} {rest : List Char} {tokens : List Token} (blank : isGap c = true)
    (others : Tiles (offset + 1) rest tokens) : Tiles offset (c :: rest) tokens
  | lexeme {offset : Nat} {c : Char} {word rest : List Char} {kind : TokenKind} {tokens : List Token}
    (visible : isGap c = false) (reaches : reach c (word ++ rest) = word.length)
    (stands : ofLexeme? c word = some kind) (others : Tiles (offset + Text.bytes (c :: word)) rest tokens) :
    Tiles offset (c :: (word ++ rest)) (⟨kind, ⟨offset, offset + Text.bytes (c :: word)⟩⟩ :: tokens)

/-- A text is cut behind its first lexeme. -/
theorem Tiles.front {offset : Nat} {c : Char} {rest : List Char} {kind : TokenKind} {tokens : List Token}
    (visible : isGap c = false) (stands : ofLexeme? c (rest.take (reach c rest)) = some kind)
    (others : Tiles (offset + Text.bytes (c :: rest.take (reach c rest))) (rest.drop (reach c rest)) tokens) :
    Tiles offset (c :: rest)
      (⟨kind, ⟨offset, offset + Text.bytes (c :: rest.take (reach c rest))⟩⟩ :: tokens) := by
  have within := (local_reach c).le_length rest
  have whole := List.take_append_drop (reach c rest) rest
  have word := Tiles.lexeme visible (by rw [whole, List.length_take, Nat.min_eq_left within]) stands others
  rwa [whole] at word

/-! ## Reading tokens -/

private theorem ok_of_map {α β : Type} {f : α → β} {result : Except SyntaxError α} {value : β}
    (mapped : result.map f = .ok value) : ∃ first, result = .ok first ∧ f first = value := by
  cases result with
  | error cause => cases mapped
  | ok first => exact ⟨first, rfl, Except.ok.inj mapped⟩

theorem tiles_of_scan {offset : Nat} {text : List Char} {tokens : List Token}
    (read : scan offset text = .ok tokens) : Tiles offset text tokens := by
  cases form : text with
  | nil =>
    rw [form, scan] at read
    obtain rfl := Except.ok.inj read
    exact .nothing offset
  | cons c rest =>
    by_cases blank : isGap c = true
    · rw [form, scan, if_pos blank] at read
      exact .gap blank (tiles_of_scan read)
    · rw [form, scan, if_neg blank] at read
      dsimp only at read
      split at read
      · cases read
      · next span place =>
        obtain ⟨rfl, _⟩ := (Span.ofRange_eq_ok_iff ..).mp place
        split at read
        · cases read
        · next kind stands =>
          obtain ⟨later, others, rfl⟩ := ok_of_map read
          exact .front (Bool.eq_false_iff.mpr blank) stands (tiles_of_scan others)
termination_by text.length
decreasing_by
  all_goals
    have := congrArg List.length form
    simp only [List.length_cons, List.length_drop] at *
    omega

theorem scan_of_tiles {offset : Nat} {text : List Char} {tokens : List Token}
    (tiles : Tiles offset text tokens) (fits : offset + Text.bytes text ≤ Span.offsetLimit) :
    scan offset text = .ok tokens := by
  induction tiles with
  | nothing => rw [scan]
  | @gap offset c rest tokens blank others ih =>
    have size := c.utf8Size_pos
    rw [Text.bytes_cons] at fits
    rw [scan, if_pos blank, ih (by omega)]
  | @lexeme offset c word rest kind tokens visible reaches stands others ih =>
    rw [← List.cons_append, Text.bytes_append] at fits
    have span : Span.ofRange offset (offset + Text.bytes (c :: word)) =
        .ok ⟨offset, offset + Text.bytes (c :: word)⟩ :=
      (Span.ofRange_eq_ok_iff ..).mpr ⟨rfl, by omega, by omega⟩
    rw [scan, if_neg (by simp [visible]), reaches, List.take_left, List.drop_left]
    simp only [span, stands, ih (by omega), Except.map]

/-! ## Parts of a text -/

namespace Tiles

variable {offset : Nat} {text : List Char} {tokens front rest : List Token} {token : Token}

/-- Tokens stand at or behind the offset of the text, and are not empty. -/
theorem bounds (tiles : Tiles offset text tokens) :
    ∀ token ∈ tokens, offset ≤ token.span.start ∧ token.span.start < token.span.stop := by
  induction tiles with
  | nothing => exact fun _ member => absurd member List.not_mem_nil
  | gap _ _ ih =>
    intro token member
    have behind := ih token member
    omega
  | @lexeme offset c word rest kind tokens visible reaches stands others ih =>
    have size := c.utf8Size_pos
    rw [Text.bytes_cons] at ih ⊢
    refine List.forall_mem_cons.mpr ⟨⟨Nat.le_refl _, by dsimp only; omega⟩, fun token member => ?_⟩
    have behind := ih token member
    omega

/-- Tokens stand one after the other. -/
theorem ordered (tiles : Tiles offset text tokens) :
    tokens.Pairwise fun left right => left.span.stop ≤ right.span.start := by
  induction tiles with
  | nothing => exact .nil
  | gap _ _ ih => exact ih
  | lexeme _ _ _ others ih =>
    exact List.pairwise_cons.mpr ⟨fun token member => (others.bounds token member).1, ih⟩

/-- What stands before a token can be cut off. -/
theorem behind (tiles : Tiles offset text (front ++ token :: rest)) :
    ∃ left right, text = left ++ right ∧ offset + Text.bytes left = token.span.start ∧
      Tiles token.span.start right (token :: rest) := by
  generalize all : front ++ token :: rest = tokens at tiles
  induction tiles generalizing front with
  | nothing => simp at all
  | @gap offset c others tokens blank tiles ih =>
    obtain ⟨left, right, rfl, place, behind⟩ := ih all
    refine ⟨c :: left, right, rfl, ?_, behind⟩
    rw [Text.bytes_cons, size_gap blank, ← Nat.add_assoc]
    exact place
  | @lexeme offset c word others kind tokens visible reaches stands tiles ih =>
    cases front with
    | nil =>
      obtain ⟨rfl, rfl⟩ := List.cons.inj all
      exact ⟨[], _, rfl, rfl, .lexeme visible reaches stands tiles⟩
    | cons first front =>
      obtain ⟨left, right, rfl, place, behind⟩ := ih (List.cons.inj all).2
      refine ⟨c :: word ++ left, right, by simp, ?_, behind⟩
      rw [Text.bytes_append, ← Nat.add_assoc]
      exact place

/-- What stands behind a token can be cut off. -/
theorem upTo (tiles : Tiles offset text (front ++ token :: rest)) :
    ∃ left right, text = left ++ right ∧ offset + Text.bytes left = token.span.stop ∧
      Tiles offset left (front ++ [token]) := by
  generalize all : front ++ token :: rest = tokens at tiles
  induction tiles generalizing front with
  | nothing => simp at all
  | @gap offset c others tokens blank tiles ih =>
    obtain ⟨left, right, rfl, place, upTo⟩ := ih all
    refine ⟨c :: left, right, rfl, ?_, .gap blank upTo⟩
    rw [Text.bytes_cons, size_gap blank, ← Nat.add_assoc]
    exact place
  | @lexeme offset c word others kind tokens visible reaches stands tiles ih =>
    cases front with
    | nil =>
      obtain ⟨rfl, rfl⟩ := List.cons.inj all
      have alone : reach c (word ++ []) = word.length := by
        rw [List.append_nil, (local_reach c).cut (Nat.le_of_eq reaches), reaches]
      refine ⟨c :: word, others, rfl, rfl, ?_⟩
      have tiles := Tiles.lexeme visible alone stands (.nothing (offset + Text.bytes (c :: word)))
      rwa [List.append_nil] at tiles
    | cons first front =>
      obtain ⟨rfl, same⟩ := List.cons.inj all
      obtain ⟨left, right, rfl, place, upTo⟩ := ih same
      have less : reach c (word ++ left) = word.length := by
        rw [← List.append_assoc] at reaches
        rw [(local_reach c).cut (by rw [reaches, List.length_append]; omega), reaches]
      refine ⟨c :: (word ++ left), right, by simp, ?_, .lexeme visible less stands upTo⟩
      rw [← List.cons_append, Text.bytes_append, ← Nat.add_assoc]
      exact place

/-- A text that stands further back has the same tokens further back. -/
theorem unshift {by_ : Nat} (tiles : Tiles (by_ + offset) text tokens) :
    ∃ others, Tiles offset text others ∧ tokens = others.map (Token.shift by_) := by
  generalize place : by_ + offset = start at tiles
  induction tiles generalizing offset with
  | nothing => exact ⟨[], .nothing offset, rfl⟩
  | gap blank _ ih =>
    obtain ⟨others, tiles, rfl⟩ := @ih (offset + 1) (by omega)
    exact ⟨others, .gap blank tiles, rfl⟩
  | @lexeme start c word rest kind tokens visible reaches stands _ ih =>
    obtain ⟨others, tiles, rfl⟩ := @ih (offset + Text.bytes (c :: word)) (by omega)
    refine ⟨_, .lexeme visible reaches stands tiles, ?_⟩
    subst place
    simp only [List.map_cons, Token.shift, Span.shift, Nat.add_assoc]

/-- The part of a text from the first of some tokens up to the last one is cut into these tokens. -/
theorem excerpt {used back : List Token} (tiles : Tiles 0 text (front ++ used ++ back)) {first last : Token}
    (begins : first ∈ used.head?) (ends : last ∈ used.getLast?) :
    ∃ left word right others, text = left ++ word ++ right ∧ Text.bytes left = first.span.start ∧
      Text.bytes (left ++ word) = last.span.stop ∧ Tiles 0 word others ∧
      used = others.map (Token.shift first.span.start) := by
  obtain ⟨more, rfl⟩ := List.head?_eq_some_iff.mp begins
  rw [List.append_assoc, List.cons_append] at tiles
  obtain ⟨left, rest, rfl, start, tiles⟩ := tiles.behind
  obtain ⟨init, same⟩ := List.getLast?_eq_some_iff.mp ends
  rw [← List.cons_append, same, List.append_assoc, List.singleton_append] at tiles
  obtain ⟨word, right, rfl, stop, tiles⟩ := tiles.upTo
  rw [← Nat.add_zero first.span.start] at tiles
  obtain ⟨others, tiles, shifted⟩ := tiles.unshift
  refine ⟨left, word, right, others, (List.append_assoc ..).symm, by omega, ?_, tiles, ?_⟩
  · rw [Text.bytes_append]
    omega
  · rw [same, shifted]

end Tiles

end Lexer

end DotChain
