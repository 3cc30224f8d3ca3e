import DotChain.Proofs.Patterns
import DotChain.Proofs.Places
import DotChain.Proofs.Spacing

/-!
# Nothing is lost

Tokens and the gaps between them make up the text that they were cut from. Main statement: `nothing_lost`, the
tokens of a source stand one after the other on boundaries, with nothing but gaps outside, and each of them has
the longest text in its place that has the pattern of a token; where reading stops, the same holds of the text
in front. What stands behind a text that is cut decides how far its last token may reach, and so it is a
parameter of the cut (`TilesBefore`).
-/

namespace DotChain.Lexer

/-- A text that stands at an offset, and in front of another one, is cut into tokens. -/
inductive TilesBefore (further : List Char) : Nat → List Char → List Token → Prop where
  | nothing (offset : Nat) : TilesBefore further offset [] []
  | gap {offset : Nat} {c : Char} {rest : List Char} {tokens : List Token} (blank : isGap c = true)
    (others : TilesBefore further (offset + 1) rest tokens) : TilesBefore further offset (c :: rest) tokens
  | lexeme {offset : Nat} {c : Char} {word rest : List Char} {kind : TokenKind} {tokens : List Token}
    (visible : isGap c = false) (reaches : reach c (word ++ (rest ++ further)) = word.length)
    (stands : ofLexeme? c word = some kind)
    (others : TilesBefore further (offset + Text.bytes (c :: word)) rest tokens) :
    TilesBefore further offset (c :: (word ++ rest))
      (⟨kind, ⟨offset, offset + Text.bytes (c :: word)⟩⟩ :: tokens)

namespace TilesBefore

variable {further : List Char} {offset : Nat} {text : List Char} {tokens : List Token} {token : Token}

/-- What stands behind a text may be cut off. -/
theorem tiles (cut : TilesBefore further offset text tokens) : Tiles offset text tokens := by
  induction cut with
  | nothing offset => exact .nothing offset
  | gap blank _ ih => exact .gap blank ih
  | @lexeme offset c word rest kind tokens visible reaches stands _ ih =>
    refine .lexeme visible ?_ stands ih
    rw [← List.append_assoc] at reaches
    rw [(local_reach c).cut (by rw [reaches, List.length_append]; omega), reaches]

/-- A token has a text, which goes on in what stands behind it as far as a lexeme reaches there. -/
theorem word (cut : TilesBefore further offset text tokens) (member : token ∈ tokens) :
    ∃ left c word right, text = left ++ c :: word ++ right ∧
      token.span = ⟨offset + Text.bytes left, offset + Text.bytes (left ++ c :: word)⟩ ∧
      reach c (word ++ (right ++ further)) = word.length ∧ ofLexeme? c word = some token.kind := by
  induction cut with
  | nothing => cases member
  | @gap offset d rest tokens blank _ ih =>
    obtain ⟨left, c, word, right, rfl, place, reaches, stands⟩ := ih member
    refine ⟨d :: left, c, word, right, rfl, ?_, reaches, stands⟩
    rw [place, List.cons_append, Text.bytes_cons, Text.bytes_cons, size_gap blank, ← Nat.add_assoc,
      ← Nat.add_assoc]
  | @lexeme offset d front rest kind tokens visible reaches stands _ ih =>
    obtain rfl | later := List.mem_cons.mp member
    · exact ⟨[], d, front, rest, rfl, rfl, reaches, stands⟩
    · obtain ⟨left, c, word, right, rfl, place, reaches, stands⟩ := ih later
      refine ⟨d :: front ++ left, c, word, right, by simp, ?_, reaches, stands⟩
      rw [place, List.append_assoc, Text.bytes_append _ left, Text.bytes_append _ (left ++ _), ← Nat.add_assoc,
        ← Nat.add_assoc]

/-- What no token covers is a gap. -/
theorem outside (cut : TilesBefore further offset text tokens) {place : Nat} (inside : place < Text.bytes text)
    (free : ∀ token ∈ tokens, ¬(token.span.start ≤ offset + place ∧ offset + place < token.span.stop)) :
    ∃ left c right, text = left ++ c :: right ∧ Text.bytes left = place ∧ isGap c = true := by
  induction cut generalizing place with
  | nothing => cases inside
  | @gap offset d rest tokens blank _ ih =>
    cases place with
    | zero => exact ⟨[], d, rest, rfl, rfl, blank⟩
    | succ place =>
      rw [Text.bytes_cons, size_gap blank] at inside
      obtain ⟨left, c, right, rfl, size, gap⟩ := @ih place (by omega) fun token member covers =>
        free token member (by omega)
      exact ⟨d :: left, c, right, rfl, by rw [Text.bytes_cons, size_gap blank]; omega, gap⟩
  | @lexeme offset d front rest kind tokens visible _ _ _ ih =>
    obtain ⟨first, others⟩ := List.forall_mem_cons.mp free
    rw [← List.cons_append, Text.bytes_append] at inside
    have behind : Text.bytes (d :: front) ≤ place := by
      dsimp only at first
      omega
    obtain ⟨left, c, right, rfl, size, gap⟩ := @ih (place - Text.bytes (d :: front)) (by omega)
      fun token member covers => others token member (by omega)
    exact ⟨d :: front ++ left, c, right, by simp, by rw [Text.bytes_append]; omega, gap⟩

end TilesBefore

/-! ## Reading -/

/-- How reading a text that stands at an offset ends: it is cut into tokens; or the text up to some place is,
and what is read there stands for nothing; or the text is too long. -/
inductive Read (offset : Nat) (text : List Char) : Except SyntaxError (List Token) → Prop where
  | all {tokens : List Token} (cut : TilesBefore [] offset text tokens) : Read offset text (.ok tokens)
  | refused {front word rest : List Char} {tokens : List Token} (split : text = front ++ (word ++ rest))
    (some : word ≠ []) (cut : TilesBefore (word ++ rest) offset front tokens) :
    Read offset text (.error (.invalidToken (String.ofList word)
      ⟨offset + Text.bytes front, offset + Text.bytes (front ++ word)⟩))
  | long (cause : Span.RangeError) (past : Span.offsetLimit < offset + Text.bytes text) :
    Read offset text (.error (.sourceTooLarge cause))

/-- Reading goes on behind a gap. -/
private theorem Read.gap {offset : Nat} {c : Char} {rest : List Char}
    {result : Except SyntaxError (List Token)} (blank : isGap c = true) (read : Read (offset + 1) rest result) :
    Read offset (c :: rest) result := by
  have size : ∀ text, offset + Text.bytes (c :: text) = offset + 1 + Text.bytes text := fun text => by
    rw [Text.bytes_cons, size_gap blank, Nat.add_assoc]
  cases read with
  | all cut => exact .all (.gap blank cut)
  | @refused front word _ _ split some cut =>
    rw [← size front, ← size (front ++ word), ← List.cons_append]
    exact .refused (congrArg (c :: ·) split) some (.gap blank cut)
  | long cause past => exact .long cause (by rwa [size])

/-- Reading goes on behind a lexeme that stands for a token. -/
private theorem Read.lexeme {offset : Nat} {c : Char} {word rest : List Char} {kind : TokenKind}
    {result : Except SyntaxError (List Token)} (visible : isGap c = false)
    (reaches : reach c (word ++ rest) = word.length) (stands : ofLexeme? c word = some kind)
    (read : Read (offset + Text.bytes (c :: word)) rest result) :
    Read offset (c :: (word ++ rest))
      (result.map (⟨kind, ⟨offset, offset + Text.bytes (c :: word)⟩⟩ :: ·)) := by
  have size : ∀ text, offset + Text.bytes (c :: (word ++ text)) =
      offset + Text.bytes (c :: word) + Text.bytes text := fun text => by
    rw [← List.cons_append, Text.bytes_append, Nat.add_assoc]
  cases read with
  | all cut => exact .all (.lexeme visible (by rwa [List.append_nil]) stands cut)
  | @refused front bad behind tokens split some cut =>
    rw [← size front, ← size (front ++ bad), ← List.append_assoc, ← List.cons_append]
    have reaches' : reach c (word ++ (front ++ (bad ++ behind))) = word.length := by rwa [← split]
    exact .refused (by simp [split]) some (.lexeme visible reaches' stands cut)
  | long cause past => exact .long cause (by rwa [size])

theorem read_scan (offset : Nat) (text : List Char) : Read offset text (scan offset text) := by
  cases form : text with
  | nil =>
    rw [scan]
    exact .all (.nothing offset)
  | cons c rest =>
    by_cases blank : isGap c = true
    · rw [scan, if_pos blank]
      exact (read_scan (offset + 1) rest).gap blank
    · have whole := List.take_append_drop (reach c rest) rest
      have within := (local_reach c).le_length rest
      rw [scan, if_neg blank]
      dsimp only
      split
      · next cause place =>
        refine .long cause (Nat.lt_of_not_le fun fits => ?_)
        have least : Text.bytes (c :: rest.take (reach c rest)) ≤ Text.bytes (c :: rest) := by
          conv_rhs => rw [← whole, ← List.cons_append, Text.bytes_append]
          exact Nat.le_add_right _ _
        rw [(Span.ofRange_eq_ok_iff ..).mpr ⟨rfl, by omega, by omega⟩] at place
        cases place
      · next span place =>
        obtain ⟨rfl, -⟩ := (Span.ofRange_eq_ok_iff ..).mp place
        split
        · next none =>
          have refused := @Read.refused offset (c :: rest) [] (c :: rest.take (reach c rest))
            (rest.drop (reach c rest)) [] (by simp) (List.cons_ne_nil _ _) (.nothing offset)
          exact refused
        · next kind stands =>
          have later := read_scan (offset + Text.bytes (c :: rest.take (reach c rest))) (rest.drop (reach c rest))
          have reaches : reach c (rest.take (reach c rest) ++ rest.drop (reach c rest)) =
              (rest.take (reach c rest)).length := by
            rw [whole, List.length_take, Nat.min_eq_left within]
          have read := later.lexeme (Bool.eq_false_iff.mpr blank) reaches stands
          rwa [whole] at read
termination_by text.length
decreasing_by
  all_goals
    have := congrArg List.length form
    simp only [List.length_cons, List.length_drop] at *
    omega

/-! ## Accounts of a text -/

/-- The tokens of a text account for all of it, when it stands in front of another one. -/
structure Accounts (text further : List Char) (tokens : List Token) : Prop where
  /-- No token is empty. -/
  filled : ∀ token ∈ tokens, token.span.start < token.span.stop
  /-- Tokens stand one after the other. -/
  ordered : tokens.Pairwise fun left right => left.span.stop ≤ right.span.start
  /-- They begin and end on boundaries. -/
  bounded : ∀ token ∈ tokens, Text.IsBoundary text token.span.start ∧ Text.IsBoundary text token.span.stop
  /-- A byte that is in none of them is a character that separates tokens. -/
  outside : ∀ place < Text.bytes text,
    (∀ token ∈ tokens, ¬(token.span.start ≤ place ∧ place < token.span.stop)) →
    ∃ left c right, text = left ++ c :: right ∧ Text.bytes left = place ∧ c ∈ [' ', '\t', '\r', '\n']
  /-- The text of each has the pattern of the token and stands for it. -/
  fits : ∀ token ∈ tokens, Fits (Text.cut text token.span) token.kind
  /-- No longer text that begins in the same place has the pattern of any token. -/
  longest : ∀ token ∈ tokens, ∀ left longer right : List Char, text ++ further = left ++ longer ++ right →
    Text.bytes left = token.span.start → token.span.stop < Text.bytes (left ++ longer) →
    ∀ kind : TokenKind, longer ∉ kind.pattern

/-- Two fronts of a text that have the same size are the same. -/
private theorem front_unique {left right left' right' : List Char} (same : left ++ right = left' ++ right')
    (size : Text.bytes left = Text.bytes left') : left = left' ∧ right = right' := by
  have first : Text.splitAt? (Text.bytes left') (left ++ right) = some (left, right) :=
    Text.splitAt?_eq_some_iff.mpr ⟨rfl, size⟩
  have second : Text.splitAt? (Text.bytes left') (left ++ right) = some (left', right') :=
    Text.splitAt?_eq_some_iff.mpr ⟨same, rfl⟩
  exact Prod.mk.inj (Option.some.inj (first.symm.trans second))

/-- A text that has the pattern of a token and begins where a lexeme does goes no further than the lexeme. -/
private theorem not_matches_longer {c : Char} {word back longer right : List Char} {kind : TokenKind}
    (reaches : reach c (word ++ back) = word.length) (split : c :: word ++ back = longer ++ right)
    (further : Text.bytes (c :: word) < Text.bytes longer) : longer ∉ kind.pattern := by
  intro there
  obtain ⟨more, rfl, rfl⟩ := Text.append_of_bytes_le split (Nat.le_of_lt further)
  have reached : (word ++ more).length ≤ reach c (word ++ more ++ right) := le_reach_of_matches there right
  rw [List.append_assoc, reaches, List.length_append] at reached
  obtain rfl : more = [] := List.eq_nil_of_length_eq_zero (by omega)
  rw [List.append_nil] at further
  exact Nat.lt_irrefl _ further

private theorem TilesBefore.accounts {further text : List Char} {tokens : List Token}
    (cut : TilesBefore further 0 text tokens) : Accounts text further tokens where
  filled token member := (cut.tiles.bounds token member).2
  ordered := cut.tiles.ordered
  bounded token member := by
    obtain ⟨left, c, word, right, rfl, place, -, -⟩ := cut.word member
    rw [place, Nat.zero_add, Nat.zero_add]
    have marks := Span.Marks.between left (c :: word) right
    exact ⟨marks.start, marks.stop⟩
  outside place inside free := by
    obtain ⟨left, c, right, split, size, gap⟩ := cut.outside inside (by simpa only [Nat.zero_add] using free)
    refine ⟨left, c, right, split, size, ?_⟩
    simpa [isGap, or_assoc] using gap
  fits token member := by
    obtain ⟨left, c, word, right, rfl, place, reaches, stands⟩ := cut.word member
    rw [place, Nat.zero_add, Nat.zero_add, Text.cut_between]
    have front : (word ++ (right ++ further)).take (reach c (word ++ (right ++ further))) = word := by
      rw [reaches, List.take_left]
    rw [← front] at stands ⊢
    exact fits_of_stands stands
  longest token member left longer right split start stop kind := by
    obtain ⟨before, c, word, behind, rfl, place, reaches, -⟩ := cut.word member
    rw [place] at start stop
    simp only [Nat.zero_add, Text.bytes_append] at start stop
    simp only [List.append_assoc] at split
    obtain ⟨rfl, same⟩ := front_unique split start.symm
    exact not_matches_longer reaches same (by omega)

/-- Reading loses nothing of a source. If it succeeds, the tokens account for all of the source; if something
stands for nothing, the error has its text and its place, and tokens account for what stands in front of it, as
far as they could reach. It fails for no other reason than that the source is too long. -/
theorem nothing_lost (source : String) : match tokens source with
    | .ok tokens => Accounts source.toList [] tokens
    | .error (.invalidToken text span) => Text.cut source.toList span = text.toList ∧
      ∃ front rest tokens, source.toList = front ++ (text.toList ++ rest) ∧ text ≠ "" ∧
        span = ⟨Text.bytes front, Text.bytes (front ++ text.toList)⟩ ∧
        Accounts front (text.toList ++ rest) tokens
    | .error error => (∃ cause, error = .sourceTooLarge cause) ∧
      Span.offsetLimit < Text.bytes source.toList := by
  have read := read_scan 0 source.toList
  unfold tokens
  generalize scan 0 source.toList = result at read
  cases read with
  | all cut => exact cut.accounts
  | @refused front word rest tokens split some cut =>
    simp only [String.toList_ofList, Nat.zero_add]
    refine ⟨?_, front, rest, tokens, split, ?_, rfl, cut.accounts⟩
    · rw [split, ← List.append_assoc, Text.cut_between]
    · intro none
      exact some (by simpa using none)
  | long cause past => exact ⟨⟨cause, rfl⟩, by rwa [Nat.zero_add] at past⟩

end DotChain.Lexer
